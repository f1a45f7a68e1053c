import ApiClient.Proofs.Tree.Gaps
import ApiClient.Proofs.Tree.Induction
import ApiClient.TypeScript.Declaration

/-! Rendering with and without tolerance for nodes that have no text.

The tolerant rendering of a class or an interface always succeeds. The strict one has the same text
if there are no gaps, and otherwise names the first of them. Enumerations have no gaps: the policy
does not reach them, and only a member that is not a constant field stops them.
-/

set_option autoImplicit false

namespace ApiClient.TypeScript

open ApiClient.Layout ApiClient.Tree

def refuse {α : Type} (gaps : List String) (value : α) : Except EmitError α :=
  match gaps with
  | [] => .ok value
  | node :: _ => .error (.unsupported node)

/-- The tolerant run has a value, and the strict run has the same one unless there is a gap. -/
def Tied {α : Type} (gaps : List String) (lenient strict : Except EmitError α) : Prop :=
  ∃ value, lenient = .ok value ∧ strict = refuse gaps value

namespace Tied

variable {α β : Type} {gaps more : List String} {lenient strict : Except EmitError α}

theorem ok (value : α) : Tied [] (.ok value) (.ok value) := ⟨value, rfl, rfl⟩

theorem bind {next strictNext : α → Except EmitError β} (first : Tied gaps lenient strict)
    (second : ∀ value, Tied more (next value) (strictNext value)) :
    Tied (gaps ++ more) (lenient >>= next) (strict >>= strictNext) := by
  obtain ⟨value, rfl, rfl⟩ := first
  obtain ⟨result, found, refused⟩ := second value
  -- a gap in the first run comes before all gaps of the second
  refine ⟨result, found, ?_⟩
  cases gaps with
  | nil => exact refused
  | cons node gaps => rfl

theorem map (f : α → β) (run : Tied gaps lenient strict) :
    Tied gaps (lenient.map f) (strict.map f) := by
  obtain ⟨value, rfl, rfl⟩ := run
  refine ⟨f value, rfl, ?_⟩
  cases gaps <;> rfl

theorem bind_ok (f : α → β) (run : Tied gaps lenient strict) :
    Tied gaps (lenient >>= fun value => .ok (f value)) (strict >>= fun value => .ok (f value)) :=
  run.map f

end Tied

theorem unsupportedText_tied (node : String) :
    Tied [node] (unsupportedText .omit node) (unsupportedText .reject node) := ⟨"", rfl, rfl⟩

theorem argumentTexts_tied (mapper : TypeMapper) (args : List Expression)
    (each : ∀ arg ∈ args,
      Tied arg.gaps (expressionText mapper .omit arg) (expressionText mapper .reject arg)) :
    Tied (gapsOfArgs args) (argumentTexts mapper .omit args)
      (argumentTexts mapper .reject args) := by
  induction args with
  | nil => exact .ok []
  | cons arg rest ih =>
    obtain ⟨first, later⟩ := List.forall_mem_cons.1 each
    simp only [argumentTexts, gapsOfArgs]
    exact first.bind fun text => (ih later).bind_ok _

theorem expressionText_tied (mapper : TypeMapper) (expression : Expression) :
    Tied expression.gaps (expressionText mapper .omit expression)
      (expressionText mapper .reject expression) := by
  induction expression with
  | field target name ih => exact ih.bind_ok _
  | property target name ih => exact ih.bind_ok _
  | methodRef target method typeArgs ih => exact ih.bind_ok _
  | call target method args ih each =>
    exact ih.bind fun _ => (argumentTexts_tied mapper args each).bind_ok _
  | create type args each => exact (argumentTexts_tied mapper args each).bind_ok _
  | unsupported form => exact unsupportedText_tied form.phrase
  | argument | variableRef | parameter | literal | snippet | this | typeName => exact .ok _

def under (policy : Policy) (options : Options) : Options :=
  { options with unsupported := policy }

theorem chunk_tied (options : Options) (statement : Statement)
    {lenient strict : Except EmitError String}
    (text : Tied statement.gaps lenient strict) :
    Tied statement.gaps (chunk (under .omit options) statement lenient)
      (chunk (under .reject options) statement strict) := by
  cases statement with
  | snippet text => exact .ok _
  | unsupported form => exact text
  | _ => exact text.map _

def StatementTied (mapper : TypeMapper) (statement : Statement) : Prop :=
  ∀ options, Tied statement.gaps (statementText mapper (under .omit options) statement)
    (statementText mapper (under .reject options) statement)

theorem blockText_tied (mapper : TypeMapper) (options : Options) (body : List Statement)
    (each : ∀ statement ∈ body, StatementTied mapper statement) :
    Tied (gapsOfBlock body) (blockText mapper (under .omit options) body)
      (blockText mapper (under .reject options) body) := by
  induction body with
  | nil => exact .ok ""
  | cons statement rest ih =>
    obtain ⟨first, later⟩ := List.forall_mem_cons.1 each
    have text := chunk_tied options.nested statement (first options.nested)
    exact text.bind fun _ => (ih later).bind_ok _

theorem elseBranchText_tied (mapper : TypeMapper) (options : Options)
    (elseBody : Option (List Statement))
    (each : ∀ body ∈ elseBody, ∀ statement ∈ body, StatementTied mapper statement) :
    Tied (gapsOfElse elseBody) (elseBranchText mapper (under .omit options) elseBody)
      (elseBranchText mapper (under .reject options) elseBody) := by
  cases elseBody with
  | none => exact .ok ""
  | some body => exact (blockText_tied mapper options body (each body rfl)).bind_ok _

theorem catchesText_tied (mapper : TypeMapper) (options : Options)
    (catches : List (CatchClause Statement))
    (each : ∀ clause ∈ catches, ∀ statement ∈ clause.body, StatementTied mapper statement) :
    Tied (gapsOfCatches catches) (catchesText mapper (under .omit options) catches)
      (catchesText mapper (under .reject options) catches) := by
  induction catches with
  | nil => exact .ok ""
  | cons clause rest ih =>
    obtain ⟨first, later⟩ := List.forall_mem_cons.1 each
    exact (blockText_tied mapper options clause.body first).bind fun _ => (ih later).bind_ok _

theorem statementText_tied (mapper : TypeMapper) (statement : Statement) :
    StatementTied mapper statement := by
  induction statement with
  | assign left right =>
    intro options
    exact (expressionText_tied mapper left).bind fun _ =>
      (expressionText_tied mapper right).bind_ok _
  | comment text => exact fun _ => .ok _
  | branch test thenBody elseBody thenEach elseEach =>
    intro options
    simp only [Statement.gaps, List.append_assoc]
    exact (expressionText_tied mapper test).bind fun _ =>
      (blockText_tied mapper options thenBody thenEach).bind fun _ =>
      (elseBranchText_tied mapper options elseBody elseEach).bind_ok _
  | expression value => exact fun _ => expressionText_tied mapper value
  | loop init test step body initText stepText each =>
    intro options
    simp only [Statement.gaps, List.append_assoc]
    exact (initText options).bind fun _ => (expressionText_tied mapper test).bind fun _ =>
      (stepText options).bind fun _ => (blockText_tied mapper options body each).bind_ok _
  | returning value =>
    intro options
    cases value with
    | none => exact .ok _
    | some value => exact (expressionText_tied mapper value).bind_ok _
  | throw value => exact fun _ => (expressionText_tied mapper value).bind_ok _
  | guarded body catches finallyBody bodyEach catchEach finallyEach =>
    intro options
    simp only [Statement.gaps, List.append_assoc]
    exact (blockText_tied mapper options body bodyEach).bind fun _ =>
      (catchesText_tied mapper options catches catchEach).bind fun _ =>
      (blockText_tied mapper options finallyBody finallyEach).bind_ok _
  | declare type name init =>
    intro options
    cases init with
    | none => exact .ok _
    | some init => exact (expressionText_tied mapper init).bind_ok _
  | snippet text => exact fun _ => .ok text
  | unsupported form => exact fun _ => unsupportedText_tied form.phrase

theorem memberText_tied (mapper : TypeMapper) (options : Options) (member : Member) :
    Tied member.gaps (memberText mapper (under .omit options) member)
      (memberText mapper (under .reject options) member) := by
  cases member with
  | method method =>
    have each := fun statement (_ : statement ∈ method.body) => statementText_tied mapper statement
    exact (blockText_tied mapper options method.body each).bind_ok _
  | field | property | snippet => exact .ok _

theorem memberTexts_tied (mapper : TypeMapper) (options : Options) (members : List Member) :
    Tied (members.flatMap Member.gaps) (memberTexts mapper (under .omit options) members)
      (memberTexts mapper (under .reject options) members) := by
  induction members with
  | nil => exact .ok ""
  | cons member rest ih =>
    exact (memberText_tied mapper options member).bind fun _ => ih.bind_ok _

theorem declarationText_tied (mapper : TypeMapper) (options : Options) {declaration : Declaration}
    (notEnum : declaration.isEnum = false) :
    Tied declaration.gaps (declarationText mapper (under .omit options) declaration)
      (declarationText mapper (under .reject options) declaration) := by
  have members : Tied declaration.gaps (membersText mapper (under .omit options) declaration)
      (membersText mapper (under .reject options) declaration) := by
    simp only [membersText, notEnum, Bool.false_eq_true, if_false]
    exact (memberTexts_tied mapper options.nested declaration.members).bind_ok _
  exact members.bind_ok _

theorem declarationText_of_gaps_eq_nil (mapper : TypeMapper) (options : Options)
    {declaration : Declaration} (notEnum : declaration.isEnum = false)
    (full : declaration.gaps = []) :
    ∃ text, ∀ policy, declarationText mapper (under policy options) declaration = .ok text := by
  obtain ⟨text, lenient, strict⟩ := declarationText_tied mapper options notEnum
  rw [full] at strict
  exact ⟨text, fun policy => by cases policy <;> assumption⟩

theorem memberTexts_withoutInit (mapper : TypeMapper) (options : Options) (members : List Member) :
    memberTexts mapper options (members.map Member.withoutInit) =
      memberTexts mapper options members := by
  induction members with
  | nil => rfl
  | cons member rest ih =>
    have same :
        memberText mapper options member.withoutInit = memberText mapper options member := by
      cases member <;> rfl
    simp only [List.map_cons, memberTexts, same, ih]

theorem declarationText_withoutInits (mapper : TypeMapper) (options : Options)
    {declaration : Declaration} (notEnum : declaration.isEnum = false) :
    declarationText mapper options declaration.withoutInits =
      declarationText mapper options declaration := by
  have members : membersText mapper options declaration.withoutInits =
      membersText mapper options declaration := by
    have kind : declaration.withoutInits.isEnum = false := notEnum
    have list : declaration.withoutInits.members = declaration.members.map Member.withoutInit := rfl
    simp only [membersText, notEnum, kind, list, Bool.false_eq_true, if_false,
      memberTexts_withoutInit]
  simp only [declarationText, members]
  rfl

/-- What is wrong with a member that is not a constant field. -/
def enumMemberError (enumName : String) : Member → EmitError
  | .field name _ _ => .nonConstantInitializer enumName name
  | member => .invalidEnumMember enumName (memberPhrase member)

theorem enumMemberText_of_isConstant (enumName : String) {member : Member}
    (constant : member.isConstant = true) :
    ∃ text, enumMemberText enumName member = .ok text := by
  match member, constant with
  | .field name _ none, _ => exact ⟨name, rfl⟩
  | .field name _ (some (.literal value)), _ => exact ⟨name ++ "=" ++ value.text, rfl⟩

theorem enumMemberText_of_not_isConstant (enumName : String) {member : Member}
    (other : member.isConstant = false) :
    enumMemberText enumName member = .error (enumMemberError enumName member) := by
  cases member with
  | field name type init =>
    cases init with
    | none => contradiction
    | some init => cases init <;> first | rfl | contradiction
  | property | method | snippet => rfl

theorem enumMemberTexts_eq (enumName : String) (members : List Member) :
    match members.find? fun member => !member.isConstant with
    | none => ∃ texts, enumMemberTexts enumName members = .ok texts
    | some member =>
      enumMemberTexts enumName members = .error (enumMemberError enumName member) := by
  induction members with
  | nil => exact ⟨[], rfl⟩
  | cons member rest ih =>
    cases constant : member.isConstant with
    | false =>
      simp only [List.find?_cons, constant, Bool.not_false, enumMemberTexts,
        enumMemberText_of_not_isConstant enumName constant]
      rfl
    | true =>
      obtain ⟨text, first⟩ := enumMemberText_of_isConstant enumName constant
      simp only [List.find?_cons, constant, Bool.not_true, enumMemberTexts, first]
      cases found : rest.find? fun member => !member.isConstant with
      | none =>
        rw [found] at ih
        obtain ⟨texts, later⟩ := ih
        exact ⟨text :: texts, by rw [later]; rfl⟩
      | some wrong =>
        rw [found] at ih
        simp only [ih]
        rfl

/-- Tolerance changes nothing but the fate of gaps. -/
theorem declarationText_policies (mapper : TypeMapper) (options : Options)
    (declaration : Declaration) :
    if declaration.isEnum then
      declarationText mapper (under .reject options) declaration =
        declarationText mapper (under .omit options) declaration ∧
      match declaration.members.find? fun member => !member.isConstant with
      | none => ∃ text, declarationText mapper options declaration = .ok text
      | some member =>
        declarationText mapper options declaration =
          .error (enumMemberError declaration.name member)
    else
      (∃ text, declarationText mapper (under .omit options) declaration = .ok text ∧
        declarationText mapper (under .reject options) declaration =
          match declaration.gaps with
          | [] => .ok text
          | node :: _ => .error (.unsupported node)) ∧
      declarationText mapper options declaration.withoutInits =
        declarationText mapper options declaration := by
  cases kind : declaration.isEnum with
  | false =>
    exact ⟨declarationText_tied mapper options kind,
      declarationText_withoutInits mapper options kind⟩
  | true =>
    -- the policy does not occur in the members of an enumeration, nor does the depth
    have members : ∀ options, membersText mapper options declaration =
        enumMemberTexts declaration.name declaration.members >>= fun texts =>
          .ok (", ".intercalate texts ++ "\x7d\n") := by
      intro options
      simp only [membersText, kind, if_true]
      rfl
    have text : ∀ options, declarationText mapper options declaration =
        enumMemberTexts declaration.name declaration.members >>= fun texts =>
          .ok (headText mapper options declaration ++ (", ".intercalate texts ++ "\x7d\n")) := by
      intro options
      simp only [declarationText, members]
      cases enumMemberTexts declaration.name declaration.members <;> rfl
    rw [if_pos rfl]
    refine ⟨by rw [text, text]; rfl, ?_⟩
    have outcome := enumMemberTexts_eq declaration.name declaration.members
    cases found : declaration.members.find? fun member => !member.isConstant with
    | none =>
      rw [found] at outcome
      obtain ⟨texts, outcome⟩ := outcome
      exact ⟨_, by rw [text, outcome]; rfl⟩
    | some member =>
      rw [found] at outcome
      simp only [text, outcome]
      rfl

end ApiClient.TypeScript
