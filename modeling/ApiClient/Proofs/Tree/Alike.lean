import Mathlib.Data.List.Forall2
import Mathlib.Data.Option.Defs
import ApiClient.Proofs.Tree.Induction
import ApiClient.Tree.Declaration

/-! Trees that look alike.

Two trees look alike when they have the same shape and the same words, and types that stand at the
same place are the same to someone who reads them. An argument looks like a variable, a field like a
property, and the name and the return type of a constructor are not seen at all.
-/

set_option autoImplicit false

namespace ApiClient.Tree

section Relations

variable (same : TypeRef → TypeRef → Prop)

inductive Expression.Alike : Expression → Expression → Prop where
  | word {first second : Expression} (name : String) :
    first ∈ [.argument name, .variable name] → second ∈ [.argument name, .variable name] →
    Alike first second
  | selection {first second target other : Expression} (name : String) :
    Alike target other → first ∈ [.field target name, .property target name] →
    second ∈ [.field other name, .property other name] → Alike first second
  | call {target other : Expression} {args others : List Expression} (method : String) :
    Alike target other → List.Forall₂ Alike args others →
    Alike (.call target method args) (.call other method others)
  | methodRef {target other : Expression} {types others : List TypeRef} (method : String) :
    Alike target other → List.Forall₂ same types others →
    Alike (.methodRef target method types) (.methodRef other method others)
  | create {type other : TypeRef} {args others : List Expression} :
    same type other → List.Forall₂ Alike args others →
    Alike (.create type args) (.create other others)
  | parameter {type other : TypeRef} (name : String) :
    same type other → Alike (.parameter name type) (.parameter name other)
  | literal (value : Literal) : Alike (.literal value) (.literal value)
  | snippet (text : String) : Alike (.snippet text) (.snippet text)
  | this : Alike .this .this
  | typeName {type other : TypeRef} : same type other → Alike (.typeName type) (.typeName other)
  | unsupported (form : ExpressionForm) : Alike (.unsupported form) (.unsupported form)

mutual

inductive Statement.Alike : Statement → Statement → Prop where
  | assign {left right left' right' : Expression} :
    Expression.Alike same left left' → Expression.Alike same right right' →
    Statement.Alike (.assign left right) (.assign left' right')
  | comment (text : String) : Statement.Alike (.comment text) (.comment text)
  | branch {test test' : Expression} {thenBody thenBody' : List Statement}
      {elseBody elseBody' : Option (List Statement)} :
    Expression.Alike same test test' → List.Forall₂ Statement.Alike thenBody thenBody' →
    Option.Rel (List.Forall₂ Statement.Alike) elseBody elseBody' →
    Statement.Alike (.branch test thenBody elseBody) (.branch test' thenBody' elseBody')
  | expression {value value' : Expression} :
    Expression.Alike same value value' → Statement.Alike (.expression value) (.expression value')
  | loop {init init' step step' : Statement} {test test' : Expression}
      {body body' : List Statement} :
    Statement.Alike init init' → Expression.Alike same test test' → Statement.Alike step step' →
    List.Forall₂ Statement.Alike body body' →
    Statement.Alike (.loop init test step body) (.loop init' test' step' body')
  | returning {value value' : Option Expression} :
    Option.Rel (Expression.Alike same) value value' →
    Statement.Alike (.returning value) (.returning value')
  | throw {value value' : Expression} :
    Expression.Alike same value value' → Statement.Alike (.throw value) (.throw value')
  | guarded {body body' finallyBody finallyBody' : List Statement}
      {catches catches' : List (CatchClause Statement)} :
    List.Forall₂ Statement.Alike body body' → List.Forall₂ CatchClause.Alike catches catches' →
    List.Forall₂ Statement.Alike finallyBody finallyBody' →
    Statement.Alike (.guarded body catches finallyBody) (.guarded body' catches' finallyBody')
  | declare {type type' : TypeRef} {init init' : Option Expression} (name : String) :
    same type type' → Option.Rel (Expression.Alike same) init init' →
    Statement.Alike (.declare type name init) (.declare type' name init')
  | snippet (text : String) : Statement.Alike (.snippet text) (.snippet text)
  | unsupported (form : StatementForm) : Statement.Alike (.unsupported form) (.unsupported form)

inductive CatchClause.Alike : CatchClause Statement → CatchClause Statement → Prop where
  | clause {body body' : List Statement} (localName : String) :
    List.Forall₂ Statement.Alike body body' → CatchClause.Alike ⟨localName, body⟩ ⟨localName, body'⟩

end

end Relations

section Induction

variable {same : TypeRef → TypeRef → Prop}

@[elab_as_elim]
theorem Expression.Alike.induct {motive : Expression → Expression → Prop}
    (word : ∀ first second name, first ∈ [.argument name, .variable name] →
      second ∈ [.argument name, .variable name] → motive first second)
    (selection : ∀ first second target other name, motive target other →
      first ∈ [.field target name, .property target name] →
      second ∈ [.field other name, .property other name] → motive first second)
    (call : ∀ target other args others method, motive target other →
      List.Forall₂ motive args others →
      motive (.call target method args) (.call other method others))
    (methodRef : ∀ target other types others method, motive target other →
      List.Forall₂ same types others →
      motive (.methodRef target method types) (.methodRef other method others))
    (create : ∀ type other args others, same type other → List.Forall₂ motive args others →
      motive (.create type args) (.create other others))
    (parameter : ∀ type other name, same type other →
      motive (.parameter name type) (.parameter name other))
    (literal : ∀ value, motive (.literal value) (.literal value))
    (snippet : ∀ text, motive (.snippet text) (.snippet text))
    (this : motive .this .this)
    (typeName : ∀ type other, same type other → motive (.typeName type) (.typeName other))
    (unsupported : ∀ form, motive (.unsupported form) (.unsupported form))
    {first second : Expression} (alike : first.Alike same second) : motive first second :=
  @Expression.Alike.rec same (fun first second _ => motive first second)
    (fun args others _ => List.Forall₂ motive args others)
    (word _ _)
    (fun name _ first second inner => selection _ _ _ _ name inner first second)
    (fun method _ _ inner each => call _ _ _ _ method inner each)
    (fun method _ types inner => methodRef _ _ _ _ method inner types)
    (fun type _ each => create _ _ _ _ type each)
    (parameter _ _) literal snippet this (typeName _ _) unsupported
    .nil (fun _ _ head tail => .cons head tail)
    _ _ alike

@[elab_as_elim]
theorem Statement.Alike.induct {motive : Statement → Statement → Prop}
    (assign : ∀ left left' right right', Expression.Alike same left left' →
      Expression.Alike same right right' → motive (.assign left right) (.assign left' right'))
    (comment : ∀ text, motive (.comment text) (.comment text))
    (branch : ∀ test test' thenBody thenBody' elseBody elseBody',
      Expression.Alike same test test' → List.Forall₂ motive thenBody thenBody' →
      Option.Rel (List.Forall₂ motive) elseBody elseBody' →
      motive (.branch test thenBody elseBody) (.branch test' thenBody' elseBody'))
    (expression : ∀ value value', Expression.Alike same value value' →
      motive (.expression value) (.expression value'))
    (loop : ∀ init init' test test' step step' body body', motive init init' →
      Expression.Alike same test test' → motive step step' → List.Forall₂ motive body body' →
      motive (.loop init test step body) (.loop init' test' step' body'))
    (returning : ∀ value value', Option.Rel (Expression.Alike same) value value' →
      motive (.returning value) (.returning value'))
    (throw : ∀ value value', Expression.Alike same value value' →
      motive (.throw value) (.throw value'))
    (guarded : ∀ body body' catches catches' finallyBody finallyBody',
      List.Forall₂ motive body body' →
      List.Forall₂ (fun clause clause' => clause.localName = clause'.localName ∧
        List.Forall₂ motive clause.body clause'.body) catches catches' →
      List.Forall₂ motive finallyBody finallyBody' →
      motive (.guarded body catches finallyBody) (.guarded body' catches' finallyBody'))
    (declare : ∀ type type' init init' name, same type type' →
      Option.Rel (Expression.Alike same) init init' →
      motive (.declare type name init) (.declare type' name init'))
    (snippet : ∀ text, motive (.snippet text) (.snippet text))
    (unsupported : ∀ form, motive (.unsupported form) (.unsupported form))
    {first second : Statement} (alike : first.Alike same second) : motive first second :=
  @Statement.Alike.rec same (fun first second _ => motive first second)
    (fun clause clause' _ => clause.localName = clause'.localName ∧
      List.Forall₂ motive clause.body clause'.body)
    (fun body body' _ => List.Forall₂ motive body body')
    (fun elseBody elseBody' _ => Option.Rel (List.Forall₂ motive) elseBody elseBody')
    (fun catches catches' _ => List.Forall₂ (fun clause clause' : CatchClause Statement =>
      clause.localName = clause'.localName ∧ List.Forall₂ motive clause.body clause'.body)
      catches catches')
    (assign _ _ _ _) comment
    (fun test _ _ thenEach elseEach => branch _ _ _ _ _ _ test thenEach elseEach)
    (expression _ _)
    (fun _ test _ _ init step each => loop _ _ _ _ _ _ _ _ init test step each)
    (returning _ _) (throw _ _)
    (fun _ _ _ bodyEach catchEach finallyEach =>
      guarded _ _ _ _ _ _ bodyEach catchEach finallyEach)
    (declare _ _ _ _) snippet unsupported
    (fun _ _ each => ⟨rfl, each⟩)
    .nil (fun _ _ head tail => .cons head tail)
    (fun _ body => .some body) .none
    .nil (fun _ _ head tail => .cons head tail)
    _ _ alike

end Induction

section Reflexive

variable {same : TypeRef → TypeRef → Prop}

theorem optionRel_refl {α : Type} {relation : α → α → Prop} {value : Option α}
    (each : ∀ a ∈ value, relation a a) : Option.Rel relation value value := by
  cases value with
  | none => exact .none
  | some a => exact .some (each a rfl)

theorem Expression.Alike.refl (types : ∀ type, same type type) (expression : Expression) :
    expression.Alike same expression := by
  induction expression with
  | argument name => exact .word name (by simp) (by simp)
  | field target name ih => exact .selection name ih (by simp) (by simp)
  | call target method args ih each => exact .call method ih (List.forall₂_same.2 each)
  | methodRef target method typeArgs ih =>
    exact .methodRef method ih (List.forall₂_same.2 fun type _ => types type)
  | create type args each => exact .create (types type) (List.forall₂_same.2 each)
  | parameter name type => exact .parameter name (types type)
  | literal value => exact .literal value
  | property target name ih => exact .selection name ih (by simp) (by simp)
  | snippet text => exact .snippet text
  | this => exact .this
  | typeName type => exact .typeName (types type)
  | variableRef name => exact .word name (by simp) (by simp)
  | unsupported form => exact .unsupported form

theorem Statement.Alike.refl (types : ∀ type, same type type) (statement : Statement) :
    statement.Alike same statement := by
  have value (value : Expression) : value.Alike same value := .refl types value
  have option (value? : Option Expression) : Option.Rel (Expression.Alike same) value? value? :=
    optionRel_refl fun inner _ => value inner
  induction statement with
  | assign left right => exact .assign (value left) (value right)
  | comment text => exact .comment text
  | branch test thenBody elseBody thenEach elseEach =>
    have thenAlike := List.forall₂_same.2 thenEach
    refine .branch (value test) thenAlike (optionRel_refl fun body inside => ?_)
    exact List.forall₂_same.2 (elseEach body inside)
  | expression inner => exact .expression (value inner)
  | loop init test step body initAlike stepAlike each =>
    exact .loop initAlike (value test) stepAlike (List.forall₂_same.2 each)
  | returning inner => exact .returning (option inner)
  | throw inner => exact .throw (value inner)
  | guarded body catches finallyBody bodyEach catchEach finallyEach =>
    refine .guarded (List.forall₂_same.2 bodyEach) (List.forall₂_same.2 fun clause inside => ?_)
      (List.forall₂_same.2 finallyEach)
    exact .clause clause.localName (List.forall₂_same.2 (catchEach clause inside))
  | declare type name init => exact .declare name (types type) (option init)
  | snippet text => exact .snippet text
  | unsupported form => exact .unsupported form

end Reflexive

/-- Methods that look alike. A constructor shows neither its name nor its return type. -/
structure Method.Alike (same : TypeRef → TypeRef → Prop) (first second : Method) : Prop where
  role : first.isConstructor = second.isConstructor
  name : first.isConstructor = false → first.name = second.name
  returns : first.isConstructor = false →
    Option.Rel same first.returnType second.returnType
  parameters : List.Forall₂ (fun p q : Parameter => p.name = q.name ∧ same p.type q.type)
    first.parameters second.parameters
  body : List.Forall₂ (Statement.Alike same) first.body second.body
  doc : first.doc = second.doc

/-- The name and the type of a field or a property. -/
def Member.typed? : Member → Option (String × TypeRef)
  | .field name type _ => some (name, type)
  | .property name type => some (name, type)
  | .method _ => none
  | .snippet _ => none

/-- Members of classes and interfaces that look alike. Initialisers are not seen. -/
inductive Member.Alike (same : TypeRef → TypeRef → Prop) : Member → Member → Prop where
  | typed {first second : Member} {type other : TypeRef} (name : String) : same type other →
    first.typed? = some (name, type) → second.typed? = some (name, other) → Alike same first second
  | method {first second : Method} : first.Alike same second →
    Alike same (.method first) (.method second)
  | snippet (text : String) : Alike same (.snippet text) (.snippet text)

/-- Members of enumerations that look alike. Types are not seen, and methods have names only. -/
inductive Member.AlikeInEnum (same : TypeRef → TypeRef → Prop) : Member → Member → Prop where
  | field {init init' : Option Expression} (name : String) (type other : TypeRef) :
    Option.Rel (Expression.Alike same) init init' →
    AlikeInEnum same (.field name type init) (.field name other init')
  | property (name : String) (type other : TypeRef) :
    AlikeInEnum same (.property name type) (.property name other)
  | method {first second : Method} : first.name = second.name →
    AlikeInEnum same (.method first) (.method second)
  | snippet (text : String) : AlikeInEnum same (.snippet text) (.snippet text)

/-- Type parameters that look alike. Only the first bound is seen. -/
structure TypeParam.Alike (same : TypeRef → TypeRef → Prop) (first second : TypeParam) :
    Prop where
  name : first.name = second.name
  bound : Option.Rel same first.bounds.head? second.bounds.head?

/-- Declarations that look alike. An enumeration shows neither type parameters nor bases. -/
structure Declaration.Alike (same sameBase : TypeRef → TypeRef → Prop)
    (first second : Declaration) : Prop where
  kind : first.kind = second.kind
  name : first.name = second.name
  exported : first.exported = second.exported
  typeParams : first.isEnum = false →
    List.Forall₂ (TypeParam.Alike same) first.typeParams second.typeParams
  bases : first.isEnum = false → List.Forall₂ sameBase first.bases second.bases
  members : first.isEnum = false →
    List.Forall₂ (Member.Alike same) first.members second.members
  values : first.isEnum = true →
    List.Forall₂ (Member.AlikeInEnum same) first.members second.members

end ApiClient.Tree
