import ApiClient.Proofs.Text.OneLine
import ApiClient.Proofs.Tree.Induction
import ApiClient.TypeScript.Declaration

/-! Texts that are copied into rendered code as they are: names, comments, texts of types, and
snippets except for those that stand in a block. String literals of expressions are quoted, and
lines of documentation and snippets in a block are cut first, so none of these counts.
-/

set_option autoImplicit false

namespace ApiClient.Tree

open ApiClient.TypeScript

mutual

def Expression.copied (mapper : TypeMapper) : Expression → List String
  | .argument name => [name]
  | .field target name => target.copied mapper ++ [name]
  | .call target method args => target.copied mapper ++ [method] ++ copiedOfArgs mapper args
  | .methodRef target method typeArgs =>
    target.copied mapper ++ [method] ++ typeArgs.map mapper.type
  | .create type args => mapper.type type :: copiedOfArgs mapper args
  | .parameter name type => [name, mapper.type type]
  | .literal _ => []
  | .property target name => target.copied mapper ++ [name]
  | .snippet text => [text]
  | .this => []
  | .typeName type => [mapper.type type]
  | .variable name => [name]
  | .unsupported _ => []

def copiedOfArgs (mapper : TypeMapper) : List Expression → List String
  | [] => []
  | arg :: rest => arg.copied mapper ++ copiedOfArgs mapper rest

end

def copiedOfOption (mapper : TypeMapper) : Option Expression → List String
  | none => []
  | some value => value.copied mapper

mutual

def Statement.copied (mapper : TypeMapper) : Statement → List String
  | .assign left right => left.copied mapper ++ right.copied mapper
  | .comment text => [text]
  | .branch test thenBody elseBody =>
    test.copied mapper ++ copiedOfBlock mapper thenBody ++ copiedOfElse mapper elseBody
  | .expression value => value.copied mapper
  | .loop init test step body =>
    init.copied mapper ++ test.copied mapper ++ step.copied mapper ++ copiedOfBlock mapper body
  | .returning value => copiedOfOption mapper value
  | .throw value => value.copied mapper
  | .guarded body catches finallyBody =>
    copiedOfBlock mapper body ++ copiedOfCatches mapper catches ++ copiedOfBlock mapper finallyBody
  | .declare type name init => mapper.type type :: name :: copiedOfOption mapper init
  | .snippet text => [text]
  | .unsupported _ => []

/-- A snippet in a block is cut into lines and does not count. -/
def copiedOfBlock (mapper : TypeMapper) : List Statement → List String
  | [] => []
  | .snippet _ :: rest => copiedOfBlock mapper rest
  | statement :: rest => statement.copied mapper ++ copiedOfBlock mapper rest

def copiedOfElse (mapper : TypeMapper) : Option (List Statement) → List String
  | none => []
  | some body => copiedOfBlock mapper body

def copiedOfCatches (mapper : TypeMapper) : List (CatchClause Statement) → List String
  | [] => []
  | ⟨localName, body⟩ :: rest =>
    localName :: copiedOfBlock mapper body ++ copiedOfCatches mapper rest

end

def Parameter.copied (mapper : TypeMapper) (parameter : Parameter) : List String :=
  [parameter.name, mapper.type parameter.type]

/-- A constructor has neither a name nor a type of its own in the text. -/
def Method.copied (mapper : TypeMapper) (method : Method) : List String :=
  (if method.isConstructor then [] else method.name :: method.returnType.toList.map mapper.type) ++
    method.parameters.flatMap (Parameter.copied mapper) ++ copiedOfBlock mapper method.body

def Member.copied (mapper : TypeMapper) : Member → List String
  | .field name type _ => [name, mapper.type type]
  | .property name type => [name, mapper.type type]
  | .method value => value.copied mapper
  | .snippet text => [text]

/-- The initialiser of an enumeration's field is written bare, without quotes. -/
def Member.copiedInEnum : Member → List String
  | .field name _ (some (.literal (.string text))) => [name, text]
  | .field name _ _ => [name]
  | _ => []

/-- The first bound counts. -/
def TypeParam.copied (mapper : TypeMapper) (param : TypeParam) : List String :=
  param.name :: (param.bounds.take 1).map mapper.type

def Declaration.copied (mapper : TypeMapper) (declaration : Declaration) : List String :=
  declaration.name ::
    if declaration.isEnum then declaration.members.flatMap Member.copiedInEnum
    else
      declaration.typeParams.flatMap (TypeParam.copied mapper) ++
      (declaration.bases.filter mapper.derivable).map mapper.type ++
      declaration.members.flatMap (Member.copied mapper)

end ApiClient.Tree

namespace ApiClient.TypeScript

open ApiClient.Tree ApiClient.Layout ApiClient.Text

/-- Everything that is copied stays within its line. -/
def AllOneLine (copied : List String) : Prop :=
  ∀ text ∈ copied, OneLine text

instance (copied : List String) : Decidable (AllOneLine copied) :=
  inferInstanceAs (Decidable (∀ text ∈ copied, OneLine text))

theorem allOneLine_append {front back : List String} :
    AllOneLine (front ++ back) ↔ AllOneLine front ∧ AllOneLine back :=
  List.forall_mem_append

theorem allOneLine_cons {text : String} {rest : List String} :
    AllOneLine (text :: rest) ↔ OneLine text ∧ AllOneLine rest :=
  List.forall_mem_cons

theorem AllOneLine.head {text : String} (copied : AllOneLine [text]) : OneLine text :=
  copied text List.mem_cons_self

/-- The value of a run, if there is one, is good. -/
def Gives {α : Type} (good : α → Prop) (run : Except EmitError α) : Prop :=
  ∀ value, run = .ok value → good value

namespace Gives

variable {α β : Type} {good : α → Prop} {fine : β → Prop} {run : Except EmitError α}

theorem ok {value : α} (holds : good value) : Gives good (.ok value) := by
  rintro _ ⟨⟩
  exact holds

theorem bind {next : α → Except EmitError β} (first : Gives good run)
    (second : ∀ value, good value → Gives fine (next value)) : Gives fine (run >>= next) := by
  cases run with
  | error error => nofun
  | ok value => exact second value (first value rfl)

theorem bind_ok {f : α → β} (first : Gives good run)
    (second : ∀ value, good value → fine (f value)) :
    Gives fine (run >>= fun value => .ok (f value)) :=
  first.bind fun value holds => .ok (second value holds)

theorem map {f : α → β} (first : Gives good run)
    (second : ∀ value, good value → fine (f value)) : Gives fine (run.map f) :=
  first.bind_ok second

theorem imp {better : α → Prop} (first : Gives good run)
    (weaker : ∀ value, good value → better value) : Gives better run :=
  fun value found => weaker value (first value found)

end Gives

theorem Literal.text_oneLine (value : Literal)
    (bare : ∀ text, value = .string text → OneLine text) : OneLine value.text := by
  cases value with
  | null => decide
  | bool value => cases value <;> decide
  | int value => exact oneLine_numerals (Number.numerals_wholeText value)
  | float value => exact oneLine_numerals (Number.numerals_plainText value)
  | string text => exact bare text rfl

theorem oneLine_literalText (value : Literal) : OneLine (literalText value) := by
  cases value with
  | string text => exact oneLine_doubleQuoted text
  | _ => exact Literal.text_oneLine _ nofun

theorem unsupportedText_gives (policy : Policy) (node : String) :
    Gives (· = "") (unsupportedText policy node) := by
  cases policy
  · exact .ok rfl
  · exact nofun

theorem oneLine_dot : OneLine "." := by decide

theorem oneLine_typed {name type : String} (both : AllOneLine [name, type]) :
    OneLine (name ++ ": " ++ type) := by
  obtain ⟨first, last⟩ := allOneLine_cons.1 both
  exact (first.append (by decide)).append last.head

theorem oneLine_parenthesized {front : String} {texts : List String} (before : OneLine front)
    (each : AllOneLine texts) : OneLine (front ++ "(" ++ ", ".intercalate texts ++ ")") := by
  have inner : OneLine (", ".intercalate texts) := .intercalate (by decide) each
  exact ((before.append (by decide)).append inner).append (by decide)

theorem argumentTexts_oneLine (mapper : TypeMapper) (policy : Policy) (args : List Expression)
    (copied : AllOneLine (copiedOfArgs mapper args))
    (each : ∀ arg ∈ args, AllOneLine (arg.copied mapper) →
      Gives OneLine (expressionText mapper policy arg)) :
    Gives AllOneLine (argumentTexts mapper policy args) := by
  induction args with
  | nil => exact .ok nofun
  | cons arg rest ih =>
    obtain ⟨first, later⟩ := allOneLine_append.1 copied
    obtain ⟨here, after⟩ := List.forall_mem_cons.1 each
    exact (here first).bind fun _ text => (ih later after).bind_ok fun _ texts =>
      allOneLine_cons.2 ⟨text, texts⟩

theorem expressionText_oneLine (mapper : TypeMapper) (policy : Policy) (expression : Expression)
    (copied : AllOneLine (expression.copied mapper)) :
    Gives OneLine (expressionText mapper policy expression) := by
  induction expression with
  | argument name | snippet text | typeName type | variableRef name => exact .ok copied.head
  | field target name ih | property target name ih =>
    obtain ⟨inner, last⟩ := allOneLine_append.1 copied
    exact (ih inner).bind_ok fun _ text => (text.append oneLine_dot).append last.head
  | call target method args ih each =>
    obtain ⟨front, inner⟩ := allOneLine_append.1 copied
    obtain ⟨first, last⟩ := allOneLine_append.1 front
    refine (ih first).bind fun _ text => ?_
    exact (argumentTexts_oneLine mapper policy args inner each).bind_ok fun _ texts =>
      oneLine_parenthesized ((text.append oneLine_dot).append last.head) texts
  | methodRef target method typeArgs ih =>
    obtain ⟨front, types⟩ := allOneLine_append.1 copied
    obtain ⟨first, last⟩ := allOneLine_append.1 front
    exact (ih first).bind_ok fun _ text =>
      oneLine_parenthesized ((text.append oneLine_dot).append last.head) types
  | create type args each =>
    obtain ⟨first, inner⟩ := allOneLine_cons.1 copied
    have new : OneLine "new " := by decide
    exact (argumentTexts_oneLine mapper policy args inner each).bind_ok fun _ texts =>
      oneLine_parenthesized (new.append first) texts
  | parameter name type =>
    exact .ok (oneLine_typed copied)
  | literal value => exact .ok (oneLine_literalText value)
  | this => exact .ok (by decide)
  | unsupported form => exact (unsupportedText_gives policy form.phrase).imp fun _ empty =>
      empty ▸ .empty

end ApiClient.TypeScript
