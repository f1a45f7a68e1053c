import ApiClient.Proofs.Tree.Alike
import ApiClient.TypeScript.Declaration
import ApiClient.TypeScript.TypeNames

/-! Trees that look alike have the same text.

A mapper turns the types of a tree into texts, and two types are the same to a reader when these
are. Then nothing but what is seen of a tree is in its text, or in the error that it gives: two
trees that look alike are rendered in the same way, whatever the mapper and the options.
-/

set_option autoImplicit false

namespace ApiClient.TypeScript

open ApiClient.Layout ApiClient.Tree

def SameText (mapper : TypeMapper) (type other : TypeRef) : Prop :=
  mapper.type type = mapper.type other

def SameBase (mapper : TypeMapper) (type other : TypeRef) : Prop :=
  SameText mapper type other ∧ mapper.derivable type = mapper.derivable other

instance (mapper : TypeMapper) (type other : TypeRef) : Decidable (SameText mapper type other) :=
  inferInstanceAs (Decidable (mapper.type type = mapper.type other))

instance (mapper : TypeMapper) (type other : TypeRef) : Decidable (SameBase mapper type other) :=
  inferInstanceAs (Decidable (_ ∧ _))

theorem SameText.refl {mapper : TypeMapper} (type : TypeRef) : SameText mapper type type := rfl

section Alike

variable {mapper : TypeMapper}

theorem map_eq_of_forall₂ {α β : Type} {f : α → β} {first second : List α}
    (each : List.Forall₂ (fun a b => f a = f b) first second) : first.map f = second.map f := by
  induction each with
  | nil => rfl
  | cons head _ ih => rw [List.map_cons, List.map_cons, head, ih]

theorem expressionText_of_word {policy : Policy} {expression : Expression} {name : String}
    (word : expression ∈ [.argument name, .variable name]) :
    expressionText mapper policy expression = .ok name := by
  simp only [List.mem_cons, List.not_mem_nil, or_false] at word
  rcases word with rfl | rfl <;> rfl

theorem expressionText_of_selection {policy : Policy} {expression target : Expression}
    {name : String} (selection : expression ∈ [.field target name, .property target name]) :
    expressionText mapper policy expression =
      do return (← expressionText mapper policy target) ++ "." ++ name := by
  simp only [List.mem_cons, List.not_mem_nil, or_false] at selection
  rcases selection with rfl | rfl <;> rfl

theorem argumentTexts_alike {policy : Policy} {args others : List Expression}
    (each : List.Forall₂ (fun a b => expressionText mapper policy a =
      expressionText mapper policy b) args others) :
    argumentTexts mapper policy args = argumentTexts mapper policy others := by
  induction each with
  | nil => rfl
  | cons head _ ih => simp only [argumentTexts, head, ih]

theorem expressionText_alike (policy : Policy) {first second : Expression}
    (alike : first.Alike (SameText mapper) second) :
    expressionText mapper policy first = expressionText mapper policy second := by
  refine Expression.Alike.induct ?word ?selection ?call ?methodRef ?create ?parameter ?literal
    ?snippet ?this ?typeName ?unsupported alike
  case word =>
    intro first second name here there
    rw [expressionText_of_word here, expressionText_of_word there]
  case selection =>
    intro first second target other name ih here there
    rw [expressionText_of_selection here, expressionText_of_selection there, ih]
  case call =>
    intro target other args others method ih each
    simp only [expressionText, ih, argumentTexts_alike each]
  case methodRef =>
    intro target other types others method ih each
    have texts : types.map mapper.type = others.map mapper.type := map_eq_of_forall₂ each
    simp only [expressionText, ih, texts]
  case create =>
    intro type other args others same each
    have text : mapper.type type = mapper.type other := same
    simp only [expressionText, text, argumentTexts_alike each]
  case parameter =>
    intro type other name same
    have text : mapper.type type = mapper.type other := same
    simp only [expressionText, text]
  case typeName =>
    intro type other same
    exact congrArg Except.ok same
  case literal => exact fun _ => rfl
  case snippet => exact fun _ => rfl
  case this => rfl
  case unsupported => exact fun _ => rfl

/-- Statements that are rendered in the same way, on their own and in a block. -/
def Agree (mapper : TypeMapper) (first second : Statement) : Prop :=
  ∀ options, statementText mapper options first = statementText mapper options second ∧
    ∀ rendered, chunk options first rendered = chunk options second rendered

theorem blockText_alike {body body' : List Statement}
    (each : List.Forall₂ (Agree mapper) body body') (options : Options) :
    blockText mapper options body = blockText mapper options body' := by
  induction each with
  | nil => rfl
  | cons head _ ih =>
    obtain ⟨text, place⟩ := head options.nested
    simp only [blockText, text, place, ih]

theorem elseBranchText_alike {elseBody elseBody' : Option (List Statement)}
    (each : Option.Rel (List.Forall₂ (Agree mapper)) elseBody elseBody') (options : Options) :
    elseBranchText mapper options elseBody = elseBranchText mapper options elseBody' := by
  cases each with
  | some body => simp only [elseBranchText, blockText_alike body options]
  | none => rfl

theorem catchesText_alike {catches catches' : List (CatchClause Statement)}
    (each : List.Forall₂ (fun clause clause' : CatchClause Statement =>
      clause.localName = clause'.localName ∧ List.Forall₂ (Agree mapper) clause.body clause'.body)
      catches catches') (options : Options) :
    catchesText mapper options catches = catchesText mapper options catches' := by
  induction each with
  | nil => rfl
  | cons head _ ih =>
    obtain ⟨name, body⟩ := head
    simp only [catchesText, name, blockText_alike body options, ih]

theorem statementText_alike {first second : Statement}
    (alike : first.Alike (SameText mapper) second) : Agree mapper first second := by
  refine Statement.Alike.induct ?assign ?comment ?branch ?expression ?loop ?returning ?throw
    ?guarded ?declare ?snippet ?unsupported alike
  case assign =>
    intro left left' right right' first second options
    refine ⟨?_, fun _ => rfl⟩
    simp only [statementText, expressionText_alike _ first, expressionText_alike _ second]
  case branch =>
    intro test test' thenBody thenBody' elseBody elseBody' alike thenEach elseEach options
    refine ⟨?_, fun _ => rfl⟩
    simp only [statementText, expressionText_alike _ alike, blockText_alike thenEach,
      elseBranchText_alike elseEach]
  case expression =>
    exact fun value value' alike options => ⟨expressionText_alike _ alike, fun _ => rfl⟩
  case loop =>
    intro init init' test test' step step' body body' initAgrees alike stepAgrees each options
    refine ⟨?_, fun _ => rfl⟩
    simp only [statementText, (initAgrees options).1, expressionText_alike _ alike,
      (stepAgrees options).1, blockText_alike each]
  case returning =>
    intro value value' alike options
    refine ⟨?_, fun _ => rfl⟩
    cases alike with
    | none => rfl
    | some alike => simp only [statementText, expressionText_alike _ alike]
  case throw =>
    intro value value' alike options
    refine ⟨?_, fun _ => rfl⟩
    simp only [statementText, expressionText_alike _ alike]
  case guarded =>
    intro body body' catches catches' finallyBody finallyBody' bodyEach catchEach finallyEach
      options
    refine ⟨?_, fun _ => rfl⟩
    have ending : finallyBody.isEmpty = finallyBody'.isEmpty := by
      cases finallyEach <;> rfl
    simp only [statementText, blockText_alike bodyEach, catchesText_alike catchEach,
      blockText_alike finallyEach, ending]
  case declare =>
    intro type type' init init' name same alike options
    refine ⟨?_, fun _ => rfl⟩
    have text : mapper.type type = mapper.type type' := same
    cases alike with
    | none => simp only [statementText, text]
    | some alike => simp only [statementText, text, expressionText_alike _ alike]
  case comment => exact fun _ _ => ⟨rfl, fun _ => rfl⟩
  case snippet => exact fun _ _ => ⟨rfl, fun _ => rfl⟩
  case unsupported => exact fun _ _ => ⟨rfl, fun _ => rfl⟩

theorem returnClause_alike {first second : Method}
    (alike : first.Alike (SameText mapper) second) :
    returnClause mapper first = returnClause mapper second := by
  unfold returnClause
  rw [← alike.role]
  cases role : first.isConstructor with
  | true => rfl
  | false =>
    have returns := alike.returns role
    revert returns
    generalize first.returnType = type
    generalize second.returnType = other
    rintro (same | _)
    · have text : mapper.type _ = mapper.type _ := same
      simp only [text]
    · rfl

theorem methodText_alike {first second : Method}
    (alike : first.Alike (SameText mapper) second) (options : Options) :
    methodText mapper options first = methodText mapper options second := by
  have name : (if first.isConstructor then "constructor" else first.name) =
      if second.isConstructor then "constructor" else second.name := by
    rw [← alike.role]
    cases role : first.isConstructor with
    | true => rfl
    | false => exact alike.name role
  have params : first.parameters.map (fun p => p.name ++ ": " ++ mapper.type p.type) =
      second.parameters.map fun p => p.name ++ ": " ++ mapper.type p.type := by
    refine map_eq_of_forall₂ (alike.parameters.imp ?_)
    rintro p q ⟨names, same⟩
    have text : mapper.type p.type = mapper.type q.type := same
    simp only [names, text]
  have body := blockText_alike (alike.body.imp fun _ _ => statementText_alike) options
  simp only [methodText, name, params, body, alike.doc, returnClause_alike alike]

theorem memberText_of_typed? {member : Member} {name : String} {type : TypeRef}
    (typed : member.typed? = some (name, type)) (options : Options) :
    memberText mapper options member =
      .ok (options.margin ++ nameAndType mapper name type ++ ";\n") := by
  cases member <;> cases typed <;> rfl

theorem memberText_alike {first second : Member} (alike : first.Alike (SameText mapper) second)
    (options : Options) :
    memberText mapper options first = memberText mapper options second := by
  cases alike with
  | typed name same here there =>
    have text : mapper.type _ = mapper.type _ := same
    rw [memberText_of_typed? here, memberText_of_typed? there, nameAndType, nameAndType, text]
  | method alike => exact methodText_alike alike options
  | snippet text => rfl

theorem memberTexts_alike {members others : List Member}
    (each : List.Forall₂ (Member.Alike (SameText mapper)) members others) (options : Options) :
    memberTexts mapper options members = memberTexts mapper options others := by
  induction each with
  | nil => rfl
  | cons head _ ih => simp only [memberTexts, memberText_alike head, ih]

theorem literal?_of_word {expression : Expression} {name : String}
    (word : expression ∈ [.argument name, .variable name]) : expression.literal? = none := by
  simp only [List.mem_cons, List.not_mem_nil, or_false] at word
  rcases word with rfl | rfl <;> rfl

theorem literal?_of_selection {expression target : Expression} {name : String}
    (selection : expression ∈ [.field target name, .property target name]) :
    expression.literal? = none := by
  simp only [List.mem_cons, List.not_mem_nil, or_false] at selection
  rcases selection with rfl | rfl <;> rfl

theorem literal?_alike {first second : Expression} {same : TypeRef → TypeRef → Prop}
    (alike : first.Alike same second) : first.literal? = second.literal? := by
  cases alike with
  | word name here there => rw [literal?_of_word here, literal?_of_word there]
  | selection name inner here there =>
    rw [literal?_of_selection here, literal?_of_selection there]
  | _ => rfl

theorem enumMemberText_alike {first second : Member} {same : TypeRef → TypeRef → Prop}
    (alike : first.AlikeInEnum same second) (enumName : String) :
    enumMemberText enumName first = enumMemberText enumName second := by
  cases alike with
  | field name type other alike =>
    cases alike with
    | none => rfl
    | some alike => simp only [enumMemberText, literal?_alike alike]
  | property name type other => rfl
  | method name => simp only [enumMemberText, memberPhrase, name]
  | snippet text => rfl

theorem enumMemberTexts_alike {members others : List Member} {same : TypeRef → TypeRef → Prop}
    (each : List.Forall₂ (Member.AlikeInEnum same) members others) (enumName : String) :
    enumMemberTexts enumName members = enumMemberTexts enumName others := by
  induction each with
  | nil => rfl
  | cons head _ ih => simp only [enumMemberTexts, enumMemberText_alike head, ih]

end Alike

section Declarations

variable {mapper : TypeMapper} {first second : Declaration}

theorem isEnum_alike {same sameBase : TypeRef → TypeRef → Prop}
    (alike : first.Alike same sameBase second) : first.isEnum = second.isEnum := by
  rw [Declaration.isEnum, Declaration.isEnum, alike.kind]

theorem typeParamText_alike {param other : TypeParam}
    (alike : param.Alike (SameText mapper) other) :
    typeParamText mapper param = typeParamText mapper other := by
  obtain ⟨name, bounds⟩ := param
  obtain ⟨otherName, otherBounds⟩ := other
  obtain ⟨rfl, bound⟩ := alike
  cases bounds with
  | nil => cases otherBounds with
    | nil => rfl
    | cons => cases bound
  | cons type rest => cases otherBounds with
    | nil => cases bound
    | cons other others =>
      cases bound with
      | some same =>
        have text : mapper.type type = mapper.type other := same
        simp only [typeParamText, text]

theorem genericClause_alike (alike : first.Alike (SameText mapper) (SameBase mapper) second)
    (notEnum : first.isEnum = false) :
    genericClause mapper first = genericClause mapper second := by
  have texts : first.typeParams.map (typeParamText mapper) =
      second.typeParams.map (typeParamText mapper) :=
    map_eq_of_forall₂ ((alike.typeParams notEnum).imp fun _ _ => typeParamText_alike)
  have empty : first.typeParams.isEmpty = second.typeParams.isEmpty := by
    rw [← List.isEmpty_map (f := typeParamText mapper), texts, List.isEmpty_map]
  simp only [genericClause, ← isEnum_alike alike, texts, empty]

theorem extended_alike {bases others : List TypeRef}
    (each : List.Forall₂ (SameBase mapper) bases others) :
    (bases.filter mapper.derivable).map mapper.type =
      (others.filter mapper.derivable).map mapper.type := by
  induction each with
  | nil => rfl
  | @cons base other _ _ head _ ih =>
    obtain ⟨text, answer⟩ := head
    have text : mapper.type base = mapper.type other := text
    cases derivable : mapper.derivable base with
    | true =>
      rw [List.filter_cons_of_pos derivable, List.filter_cons_of_pos (answer ▸ derivable),
        List.map_cons, List.map_cons, text, ih]
    | false =>
      have left : ¬mapper.derivable base = true := Bool.eq_false_iff.1 derivable
      rw [List.filter_cons_of_neg left, List.filter_cons_of_neg (answer ▸ left), ih]

/-- The head of an enumeration has neither clause. -/
theorem headText_alike (alike : first.Alike (SameText mapper) (SameBase mapper) second)
    (options : Options) : headText mapper options first = headText mapper options second := by
  have kinds := isEnum_alike alike
  have generic : genericClause mapper first = genericClause mapper second := by
    cases kind : first.isEnum with
    | false => exact genericClause_alike alike kind
    | true => simp only [genericClause, ← kinds, kind, Bool.true_or, if_true]
  have base : baseClause mapper first = baseClause mapper second := by
    cases kind : first.isEnum with
    | false => simp only [baseClause, ← kinds, extended_alike (alike.bases kind)]
    | true => simp only [baseClause, ← kinds, kind, Bool.true_or, if_true]
  simp only [headText, alike.exported, alike.kind, alike.name, generic, base]

theorem membersText_alike (alike : first.Alike (SameText mapper) (SameBase mapper) second)
    (options : Options) : membersText mapper options first = membersText mapper options second := by
  have kinds := isEnum_alike alike
  cases kind : first.isEnum with
  | false =>
    simp only [membersText, ← kinds, kind, Bool.false_eq_true, if_false,
      memberTexts_alike (alike.members kind)]
  | true =>
    simp only [membersText, ← kinds, kind, if_true, alike.name,
      enumMemberTexts_alike (alike.values kind)]

end Declarations

/-- What is not seen of a declaration has no influence on its text, nor on the error if it has
none. -/
theorem declarationText_alike (mapper : TypeMapper) (options : Options)
    {first second : Declaration}
    (alike : first.Alike (SameText mapper) (SameBase mapper) second) :
    declarationText mapper options first = declarationText mapper options second := by
  simp only [declarationText, membersText_alike alike, headText_alike alike]

/-- A class, and the same class with everything changed that is not seen. -/
def plainClass : Declaration :=
  { kind := .classType, name := "Box"
    typeParams := [{ name := "T", bounds := [{ name := "Base" }] }]
    bases := [TypeRef.int, { name := "Entity" }]
    members := [
      .property "size" .int,
      .method .initializer,
      .method {
        name := "get", returnType := some .string
        body := [.snippet "check();", .returning (some (.field (.argument "x") "y"))] }] }

def disguisedClass : Declaration :=
  { kind := .classType, name := "Box"
    typeParams := [{ name := "T", bounds := [{ name := "Base" }, { name := "Other" }] }]
    bases := [{ name := "Int64" }, { name := "Entity" }]
    members := [
      .field "size" { name := "System.Int32" } (some .this),
      .method { Method.initializer with name := "new", returnType := some .void },
      .method {
        name := "get", returnType := some { name := "Guid" }
        body := [.snippet "check();", .returning (some (.property (.variable "x") "y"))] }] }

theorem declarationText_alike_disguised :
    disguisedClass.Alike (SameText typeMapper) (SameBase typeMapper) plainClass ∧
      declarationText typeMapper .strict disguisedClass =
        declarationText typeMapper .strict plainClass := by
  have unchanged (statement : Statement) : statement.Alike (SameText typeMapper) statement :=
    .refl .refl statement
  have word : Expression.Alike (SameText typeMapper) (.variable "x") (.argument "x") :=
    .word "x" (by simp) (by simp)
  have selected : Expression.Alike (SameText typeMapper) (.property (.variable "x") "y")
      (.field (.argument "x") "y") :=
    .selection "y" word (by simp) (by simp)
  have alike : disguisedClass.Alike (SameText typeMapper) (SameBase typeMapper) plainClass := by
    refine ⟨rfl, rfl, rfl, fun _ => ?_, fun _ => ?_, fun _ => ?_, nofun⟩
    · exact .cons ⟨rfl, .some rfl⟩ .nil
    · exact .cons (by decide) (.cons (by decide) .nil)
    · refine .cons (.typed "size" ?_ rfl rfl) (.cons (.method ?_) (.cons (.method ?_) .nil))
      · decide
      · exact ⟨rfl, nofun, nofun, .nil, .nil, rfl⟩
      · refine ⟨rfl, fun _ => rfl, fun _ => .some ?_, .nil, ?_, rfl⟩
        · decide
        · exact .cons (unchanged _) (.cons (.returning (.some selected)) .nil)
  exact ⟨alike, declarationText_alike typeMapper .strict alike⟩

def constructingEnum (name : String) : Declaration :=
  { kind := .enumType, name := "E"
    members := [.method { Method.initializer with name }] }

/-- The error of an enumeration names the constructor, although its name is not seen elsewhere. -/
theorem declarationText_constructingEnum :
    Method.Alike (SameText typeMapper) Method.initializer
        { Method.initializer with name := "init" } ∧
      declarationText typeMapper {} (constructingEnum "constructor") =
        .error (.invalidEnumMember "E" "method 'constructor'") ∧
      declarationText typeMapper {} (constructingEnum "init") =
        .error (.invalidEnumMember "E" "method 'init'") :=
  ⟨⟨rfl, nofun, nofun, .nil, .nil, rfl⟩, rfl, rfl⟩

end ApiClient.TypeScript
