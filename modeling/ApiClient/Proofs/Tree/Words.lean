import ApiClient.Proofs.Layout.Pieces
import ApiClient.Proofs.Tree.Parts
import ApiClient.Text.Lines

/-! Names, comments and snippets of a tree. String literals are no words: they are quoted. -/

set_option autoImplicit false

namespace ApiClient.Tree

open ApiClient.Layout

mutual

def TypeRef.names : TypeRef → List String
  | ⟨name, _, args⟩ => name :: namesOfTypes args

def namesOfTypes : List TypeRef → List String
  | [] => []
  | type :: rest => type.names ++ namesOfTypes rest

end

theorem mem_namesOfTypes {types : List TypeRef} {name : String} :
    name ∈ namesOfTypes types ↔ ∃ type ∈ types, name ∈ type.names := by
  induction types with
  | nil => simp [namesOfTypes]
  | cons type rest ih => simp [namesOfTypes, ih]

theorem forall_mem_namesOfTypes {property : String → Prop} {types : List TypeRef} :
    (∀ name ∈ namesOfTypes types, property name) ↔
      ∀ type ∈ types, ∀ name ∈ type.names, property name := by
  induction types with
  | nil => simp [namesOfTypes]
  | cons type rest ih => rw [namesOfTypes, List.forall_mem_append, List.forall_mem_cons, ih]

def Expression.words : Expression → List String
  | .argument name => [name]
  | .field _ name => [name]
  | .call _ method _ => [method]
  | .methodRef _ method typeArgs => method :: namesOfTypes typeArgs
  | .create type _ => type.names
  | .parameter name type => name :: type.names
  | .literal _ => []
  | .property _ name => [name]
  | .snippet text => [text]
  | .this => []
  | .typeName type => type.names
  | .variable name => [name]
  | .unsupported _ => []

def Expression.IsPlain (expression : Expression) : Prop :=
  ∀ part ∈ expression.parts, ∀ word ∈ part.words, Plain word

instance (expression : Expression) : Decidable expression.IsPlain :=
  inferInstanceAs (Decidable (∀ part ∈ expression.parts, ∀ word ∈ part.words, Plain word))

/-- A snippet that does not stand in a block is one word. -/
def Statement.wholeWords : Statement → List String
  | .snippet text => [text]
  | _ => []

/-- The words of a statement without those of the nodes inside it. A snippet is cut into lines. -/
def Statement.words : Statement → List String
  | .assign _ _ => []
  | .comment text => [text]
  | .branch _ _ _ => []
  | .expression _ => []
  | .loop init _ step _ => init.wholeWords ++ step.wholeWords
  | .returning _ => []
  | .throw _ => []
  | .guarded _ catches _ => catches.map CatchClause.localName
  | .declare type name _ => name :: type.names
  | .snippet text => Text.lines text
  | .unsupported _ => []

def Statement.HasPlainWords (statement : Statement) : Prop :=
  (∀ word ∈ statement.words, Plain word) ∧
    ∀ expression ∈ statement.expressions, expression.IsPlain

instance (statement : Statement) : Decidable statement.HasPlainWords :=
  inferInstanceAs (Decidable (_ ∧ _))

def Statement.IsPlain (statement : Statement) : Prop :=
  ∀ part ∈ statement.parts, part.HasPlainWords

instance (statement : Statement) : Decidable statement.IsPlain :=
  inferInstanceAs (Decidable (∀ part ∈ statement.parts, part.HasPlainWords))

def Parameter.words (parameter : Parameter) : List String :=
  parameter.name :: parameter.type.names

def Method.words (method : Method) : List String :=
  method.name :: (method.parameters.flatMap Parameter.words ++
    namesOfTypes method.returnType.toList)

def Member.words : Member → List String
  | .field name type _ => name :: type.names
  | .property name type => name :: type.names
  | .method value => value.words
  | .snippet text => [text]

def Member.body : Member → List Statement
  | .method value => value.body
  | _ => []

def Member.doc : Member → List String
  | .method value => value.doc
  | _ => []

def TypeParam.words (param : TypeParam) : List String :=
  param.name :: namesOfTypes param.bounds

def Declaration.words (declaration : Declaration) : List String :=
  declaration.name :: (declaration.typeParams.flatMap TypeParam.words ++
    namesOfTypes declaration.bases)

structure Declaration.IsPlain (declaration : Declaration) : Prop where
  head : ∀ word ∈ declaration.words, Plain word
  members : ∀ member ∈ declaration.members, ∀ word ∈ member.words, Plain word
  bodies : ∀ member ∈ declaration.members, ∀ statement ∈ member.body, statement.IsPlain

end ApiClient.Tree
