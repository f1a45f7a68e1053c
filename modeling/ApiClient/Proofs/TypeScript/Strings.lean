import ApiClient.Proofs.Text.DoubleQuoted
import ApiClient.Proofs.TypeScript.Pieces
import ApiClient.TypeScript.TypeNames

/-! String literals in generated code.

A literal is one token, and reading the token gives the string back, whatever follows. Around the
token stands a text that does not depend on the string, wherever the literal is: among the
arguments of calls, in a statement, or deep in a declaration.
-/

set_option autoImplicit false

namespace ApiClient.TypeScript

open ApiClient.Layout ApiClient.Tree

section Expressions

variable (mapper : TypeMapper) (policy : Policy)

def argumentList (args : List Expression) : Except EmitError String :=
  joined ((args.map (expressionText mapper policy)).intersperse (.ok ", "))

theorem argumentList_eq (args : List Expression) :
    argumentList mapper policy args =
      do return ", ".intercalate (← argumentTexts mapper policy args) := by
  unfold argumentList
  induction args with
  | nil => rfl
  | cons arg rest ih =>
    cases rest with
    | nil =>
      simp only [List.map_cons, List.map_nil, List.intersperse, joined, argumentTexts, ok_bind,
        bind_assoc, pure_bind, String.intercalate_singleton, String.append_empty]
    | cons next rest =>
      simp only [List.map_cons, List.intersperse_cons_cons] at ih ⊢
      rw [joined, joined, ih]
      simp only [argumentTexts, ok_bind, bind_assoc, pure_bind, String.intercalate_cons_cons,
        String.append_assoc]

theorem intersperse_around {α : Type} (separator : α) (front back : List α) :
    ∃ before after, ∀ x, (front ++ x :: back).intersperse separator = before ++ x :: after := by
  induction front with
  | nil =>
    cases back with
    | nil => exact ⟨[], [], fun x => rfl⟩
    | cons next rest => exact ⟨[], _, fun x => List.intersperse_cons_cons⟩
  | cons first rest ih =>
    obtain ⟨before, after, around⟩ := ih
    refine ⟨first :: separator :: before, after, fun x => ?_⟩
    rw [List.cons_append, List.cons_append, List.cons_append, ← around]
    cases rest <;> rfl

theorem expressionText_field (target : Expression) (name : String) :
    expressionText mapper policy (.field target name) =
      joined [expressionText mapper policy target, .ok ("." ++ name)] := by
  simp only [expressionText, joined, ok_bind, pure_bind, String.append_assoc, String.append_empty]

theorem expressionText_property (target : Expression) (name : String) :
    expressionText mapper policy (.property target name) =
      joined [expressionText mapper policy target, .ok ("." ++ name)] :=
  expressionText_field mapper policy target name

theorem expressionText_call (target : Expression) (method : String) (args : List Expression) :
    expressionText mapper policy (.call target method args) =
      joined [expressionText mapper policy target, .ok ("." ++ method ++ "("),
        argumentList mapper policy args, .ok ")"] := by
  simp only [expressionText, argumentList_eq, joined, ok_bind, bind_assoc, pure_bind,
    String.append_assoc, String.append_empty]

theorem expressionText_methodRef (target : Expression) (method : String)
    (typeArgs : List TypeRef) :
    expressionText mapper policy (.methodRef target method typeArgs) =
      joined [expressionText mapper policy target,
        .ok ("." ++ method ++ "(" ++ ", ".intercalate (typeArgs.map mapper.type) ++ ")")] := by
  simp only [expressionText, joined, ok_bind, pure_bind, String.append_assoc, String.append_empty]

theorem expressionText_create (type : TypeRef) (args : List Expression) :
    expressionText mapper policy (.create type args) =
      joined [.ok ("new " ++ mapper.type type ++ "("), argumentList mapper policy args,
        .ok ")"] := by
  simp only [expressionText, argumentList_eq, joined, ok_bind, bind_assoc, pure_bind,
    String.append_assoc, String.append_empty]

variable {α : Type} {pieces : α → List (Except EmitError String)} {admitted : α → Prop}
variable {mapper policy} {value : α → Expression}

theorem argumentList_inPieces (front back : List Expression)
    (inner : InPieces pieces admitted fun x => expressionText mapper policy (value x)) :
    InPieces pieces admitted fun x => argumentList mapper policy (front ++ value x :: back) := by
  obtain ⟨before, after, around⟩ := intersperse_around (.ok ", ")
    (front.map (expressionText mapper policy)) (back.map (expressionText mapper policy))
  refine inner.within before after fun x _ => ?_
  rw [argumentList, List.map_append, List.map_cons, around]

theorem expressionText_inPieces (place : ExpressionPlace)
    (inner : InPieces pieces admitted fun x => expressionText mapper policy (value x)) :
    InPieces pieces admitted fun x => expressionText mapper policy (place.fill (value x)) := by
  induction place with
  | whole => exact inner
  | fieldTarget place name ih =>
    exact ih.within [] [_] fun x _ => expressionText_field mapper policy _ name
  | propertyTarget place name ih =>
    exact ih.within [] [_] fun x _ => expressionText_property mapper policy _ name
  | callTarget place method args ih =>
    exact ih.within [] [_, _, _] fun x _ => expressionText_call mapper policy _ method args
  | callArg target method front place back ih =>
    exact (argumentList_inPieces front back ih).within [_, _] [_] fun x _ =>
      expressionText_call mapper policy target method _
  | methodRefTarget place method typeArgs ih =>
    exact ih.within [] [_] fun x _ => expressionText_methodRef mapper policy _ method typeArgs
  | createArg type front place back ih =>
    exact (argumentList_inPieces front back ih).within [_] [_] fun x _ =>
      expressionText_create mapper policy type _

end Expressions

section Statements

variable (mapper : TypeMapper) (options : Options)

theorem statementText_assign (left right : Expression) :
    statementText mapper options (.assign left right) =
      joined [expressionText mapper options.unsupported left, .ok " = ",
        expressionText mapper options.unsupported right] := by
  simp only [statementText, joined, ok_bind, bind_assoc, pure_bind, String.append_assoc,
    String.append_empty]

theorem statementText_returning (value : Expression) :
    statementText mapper options (.returning (some value)) =
      joined [.ok "return ", expressionText mapper options.unsupported value] := by
  simp only [statementText, joined, ok_bind, bind_assoc, pure_bind, String.append_empty]

theorem statementText_throw (value : Expression) :
    statementText mapper options (.throw value) =
      joined [.ok "throw ", expressionText mapper options.unsupported value] := by
  simp only [statementText, joined, ok_bind, bind_assoc, pure_bind, String.append_empty]

theorem statementText_declare (type : TypeRef) (name : String) (init : Expression) :
    statementText mapper options (.declare type name (some init)) =
      joined [.ok (mapper.type type ++ " " ++ name ++ " = "),
        expressionText mapper options.unsupported init] := by
  simp only [statementText, joined, ok_bind, bind_assoc, pure_bind, String.append_empty]

variable {α : Type} {pieces : α → List (Except EmitError String)} {admitted : α → Prop}
variable {mapper options} {value : α → Expression}

theorem statementText_value_inPieces (place : ValuePlace)
    (inner : InPieces pieces admitted fun x =>
      expressionText mapper options.unsupported (value x)) :
    InPieces pieces admitted fun x => statementText mapper options (place.fill (value x)) := by
  induction place with
  | assigned right =>
    exact inner.within [] [_, _] fun x _ => statementText_assign mapper options _ right
  | assignment left =>
    exact inner.within [_, _] [] fun x _ => statementText_assign mapper options left _
  | branchTest thenBody elseBody =>
    exact inner.within [_] [_, _, _, _] fun x _ =>
      statementText_branch mapper options _ thenBody elseBody
  | expression => exact inner
  | loopInit place test step body ih =>
    exact ih.within [_] [_, _, _, _, _, _, _] fun x _ =>
      statementText_loop mapper options _ step test body
  | loopTest init step body =>
    exact inner.within [_, _, _] [_, _, _, _, _] fun x _ =>
      statementText_loop mapper options init step _ body
  | loopStep init test place body ih =>
    exact ih.within [_, _, _, _, _] [_, _, _] fun x _ =>
      statementText_loop mapper options init _ test body
  | returning => exact inner.within [_] [] fun x _ => statementText_returning mapper options _
  | throw => exact inner.within [_] [] fun x _ => statementText_throw mapper options _
  | declare type name =>
    exact inner.within [_] [] fun x _ => statementText_declare mapper options type name _

theorem InPieces.sibling {piece : Statement → Except EmitError String}
    {accepts : List Statement → Prop} {render : List Statement → Except EmitError String}
    {statement : α → Statement} (siblings : InPieces (List.map piece) accepts render)
    (front back : List Statement)
    (every : ∀ x, admitted x → accepts (front ++ statement x :: back))
    (inner : InPieces pieces admitted fun x => piece (statement x)) :
    InPieces pieces admitted fun x => render (front ++ statement x :: back) := by
  obtain ⟨before, after, made⟩ := siblings
  refine inner.within (before ++ front.map piece) (back.map piece ++ after) fun x may => ?_
  rw [made _ (every x may), List.map_append, List.map_cons]
  simp only [List.append_assoc, List.cons_append]

end Statements

/-- The token of a string stands between two texts that do not depend on the string, and what
follows it has no part in reading it. Otherwise there is an error, the same for all strings. -/
def KeepsToken (render : String → Except EmitError String) : Prop :=
  (∃ head tail, ∀ text,
    render text = .ok (head ++ Text.doubleQuoted text ++ tail) ∧
      Text.readDoubleQuoted? (Text.doubleQuoted text ++ tail) = some (text, tail)) ∨
  ∃ error, ∀ text, render text = .error error

def tokenPieces (text : String) : List (Except EmitError String) :=
  [.ok (Text.doubleQuoted text)]

theorem InPieces.keepsToken {render : String → Except EmitError String}
    (inner : InPieces tokenPieces (fun _ => True) render) : KeepsToken render := by
  obtain ⟨before, after, made⟩ := inner
  have split (text : String) : render text = do
      return (← joined before) ++ Text.doubleQuoted text ++ (← joined after) := by
    rw [made text trivial, joined_append, joined_append]
    simp only [tokenPieces, joined, ok_bind, bind_assoc, pure_bind, String.append_empty]
  cases start : joined before with
  | error error => exact .inr ⟨error, fun text => by rw [split, start]; rfl⟩
  | ok head =>
    cases stop : joined after with
    | error error => exact .inr ⟨error, fun text => by rw [split, start, stop]; rfl⟩
    | ok tail =>
      refine .inl ⟨head, tail, fun text => ⟨?_, Text.readDoubleQuoted?_append text tail⟩⟩
      rw [split, start, stop]
      rfl

section Literals

variable (mapper : TypeMapper)

def literalIn (place : ExpressionPlace) (text : String) : Expression :=
  place.fill (.literal (.string text))

theorem literalIn_inPieces (policy : Policy) (place : ExpressionPlace) :
    InPieces tokenPieces (fun _ => True) fun text =>
      expressionText mapper policy (literalIn place text) :=
  expressionText_inPieces place ⟨[], [], fun _ _ => (joined_singleton _).symm⟩

theorem statementText_literal_inPieces (options : Options) (holder : ValuePlace)
    (place : ExpressionPlace) :
    InPieces tokenPieces (fun _ => True) fun text =>
      statementText mapper options (holder.fill (literalIn place text)) :=
  statementText_value_inPieces holder (literalIn_inPieces mapper options.unsupported place)

theorem statementPiece_literal_inPieces (options : Options) (holder : ValuePlace)
    (place : ExpressionPlace) :
    InPieces tokenPieces (fun _ => True) fun text =>
      statementPiece mapper options (holder.fill (literalIn place text)) :=
  (statementText_literal_inPieces mapper options holder place).within [_] [_] fun _ _ =>
    statementPiece_value mapper options holder _

end Literals

/-- A string literal is a token that reads back as the string, whatever follows, and no part of it
that begins it is a token. So different strings have different literals, and none reaches into the
expression, the statement or the declaration around it. -/
theorem stringLiteral_readBack (mapper : TypeMapper) :
    (∀ (policy : Policy) (text rest : String), ∃ token,
      expressionText mapper policy (.literal (.string text)) = .ok token ∧
        Text.readDoubleQuoted? (token ++ rest) = some (text, rest) ∧
        ∀ part missing, token = part ++ missing → missing ≠ "" →
          Text.readDoubleQuoted? part = none) ∧
    (∀ policy : Policy, Function.Injective fun text =>
      expressionText mapper policy (.literal (.string text))) ∧
    (∀ (policy : Policy) (place : ExpressionPlace), KeepsToken fun text =>
      expressionText mapper policy (literalIn place text)) ∧
    (∀ (options : Options) (holder : ValuePlace) (place : ExpressionPlace),
      KeepsToken fun text => statementText mapper options (holder.fill (literalIn place text))) ∧
    ∀ (options : Options) (declaration : Declaration), declaration.isEnum = false →
      ∀ (members others : List Member) (method : Method) (block : BlockPlace)
        (front back : List Statement) (holder : ValuePlace) (place : ExpressionPlace),
        KeepsToken fun text => declarationText mapper options { declaration with
          members := members ++ .method { method with
            body := block.fill (front ++ holder.fill (literalIn place text) :: back) } ::
            others } := by
  refine ⟨fun policy text rest => ?_, fun policy text other same => ?_, fun policy place => ?_,
    fun options holder place => ?_, ?_⟩
  · refine ⟨Text.doubleQuoted text, rfl, Text.readDoubleQuoted?_append text rest, ?_⟩
    exact fun part missing => Text.readDoubleQuoted?_eq_none_of_part
  · have tokens : Text.doubleQuoted text = Text.doubleQuoted other := Except.ok.inj same
    exact (Text.doubleQuoted_append_inj (congrArg (· ++ "") tokens)).1
  · exact (literalIn_inPieces mapper policy place).keepsToken
  · exact (statementText_literal_inPieces mapper options holder place).keepsToken
  · intro options declaration plain members others method block front back holder place
    refine InPieces.keepsToken ?_
    -- a list with the statement in it is never empty, so no `finally` is lost
    refine (body_inPieces mapper options plain members others method block).sibling front back
      (fun text _ _ => by simp) ?_
    exact statementPiece_literal_inPieces mapper _ holder place

def loggingClass : Declaration :=
  { kind := .classType, name := "Logger" }

theorem stringLiteral_readBack_logged :
    (∃ token, expressionText typeMapper .omit (.literal (.string "\\\");")) = .ok token ∧
      Text.readDoubleQuoted? (token ++ ");") = some ("\\\");", ");")) ∧
    loggingClass.isEnum = false ∧
    KeepsToken fun text =>
      let call : Expression := .call .this "log" [.literal (.string text), .argument "x"]
      declarationText typeMapper {} { loggingClass with
        members := [.method { Method.initializer with body := [.expression call] }] } := by
  obtain ⟨reads, -, -, -, keeps⟩ := stringLiteral_readBack typeMapper
  obtain ⟨token, rendered, read, -⟩ := reads .omit "\\\");" ");"
  have plain : loggingClass.isEnum = false := rfl
  exact ⟨⟨token, rendered, read⟩, plain,
    keeps {} loggingClass plain [] [] Method.initializer .whole [] [] .expression
      (.callArg .this "log" [] .whole [.argument "x"])⟩

end ApiClient.TypeScript
