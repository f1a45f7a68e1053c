import ApiClient.Proofs.Tree.Pruned
import ApiClient.Proofs.TypeScript.Policy
import ApiClient.TypeScript.TypeNames

/-! Omitting nodes without text is deleting them.

The tolerant rendering of a tree is that of the pruned tree: a statement without text adds nothing
to its block, and an empty snippet is as good as any other node without text. Braces depend on what
is there and not on its text: an alternative branch has them when it is empty, and a list behind
`finally` when it has statements.
-/

set_option autoImplicit false

namespace ApiClient.TypeScript

open ApiClient.Layout ApiClient.Tree

section Expressions

variable (mapper : TypeMapper)

theorem argumentTexts_filledArgs (args : List Expression)
    (each : ∀ arg ∈ args,
      expressionText mapper .omit arg.filled = expressionText mapper .omit arg) :
    argumentTexts mapper .omit (filledArgs args) = argumentTexts mapper .omit args := by
  induction args with
  | nil => rfl
  | cons arg rest ih =>
    obtain ⟨first, later⟩ := List.forall_mem_cons.1 each
    rw [filledArgs, argumentTexts, argumentTexts, first, ih later]

theorem expressionText_filled (expression : Expression) :
    expressionText mapper .omit expression.filled = expressionText mapper .omit expression := by
  induction expression with
  | field target name ih | property target name ih | methodRef target method typeArgs ih =>
    simp only [Expression.filled, expressionText, ih]
  | call target method args ih each =>
    simp only [Expression.filled, expressionText, ih, argumentTexts_filledArgs mapper args each]
  | create type args each =>
    simp only [Expression.filled, expressionText, argumentTexts_filledArgs mapper args each]
  | argument | parameter | literal | snippet | this | typeName | variableRef | unsupported => rfl

end Expressions

section Statements

variable (mapper : TypeMapper) (options : Options)

theorem chunk_pruned (inner : Options) {statement : Statement} (other : statement.isGap = false)
    (text : Except EmitError String) :
    chunk inner statement.pruned text = chunk inner statement text := by
  cases statement with
  | unsupported form => contradiction
  | _ => rfl

def StatementOmits (statement : Statement) : Prop :=
  ∀ options, statementText mapper (under .omit options) statement.pruned =
    statementText mapper (under .omit options) statement

theorem blockText_cons_of_isGap {statement : Statement} (gap : statement.isGap = true)
    (rest : List Statement) :
    blockText mapper (under .omit options) (statement :: rest) =
      blockText mapper (under .omit options) rest := by
  cases statement with
  | unsupported form =>
    change (blockText mapper (under .omit options) rest).map ("" ++ ·) = _
    simp only [String.empty_append]
    cases blockText mapper (under .omit options) rest <;> rfl
  | _ => contradiction

theorem blockText_of_gaps {body : List Statement} (gaps : body.all Statement.isGap = true) :
    blockText mapper (under .omit options) body = .ok "" := by
  induction body with
  | nil => rfl
  | cons statement rest ih =>
    rw [List.all_cons, Bool.and_eq_true] at gaps
    rw [blockText_cons_of_isGap mapper options gaps.1, ih gaps.2]

theorem blockText_prunedBlock (body : List Statement)
    (each : ∀ statement ∈ body, StatementOmits mapper statement) :
    blockText mapper (under .omit options) (prunedBlock body) =
      blockText mapper (under .omit options) body := by
  induction body with
  | nil => rfl
  | cons statement rest ih =>
    obtain ⟨first, later⟩ := List.forall_mem_cons.1 each
    cases gap : statement.isGap with
    | true =>
      rw [prunedBlock, if_pos gap, ih later, blockText_cons_of_isGap mapper options gap]
    | false =>
      -- the statement stays, and stands one unit deeper than its block
      have text := first options.nested
      rw [prunedBlock, gap, if_neg Bool.false_ne_true, blockText, blockText, ih later,
        chunk_pruned _ gap]
      change (chunk _ _ (statementText mapper (under .omit options.nested) _) >>= _) = _
      rw [text]
      rfl

theorem elseBranchText_prunedElse (elseBody : Option (List Statement))
    (each : ∀ body ∈ elseBody, ∀ statement ∈ body, StatementOmits mapper statement) :
    elseBranchText mapper (under .omit options) (prunedElse elseBody) =
      elseBranchText mapper (under .omit options) elseBody := by
  cases elseBody with
  | none => rfl
  | some body =>
    rw [prunedElse, elseBranchText, elseBranchText,
      blockText_prunedBlock mapper options body (each body rfl)]

theorem catchesText_prunedCatches (catches : List (CatchClause Statement))
    (each : ∀ clause ∈ catches, ∀ statement ∈ clause.body, StatementOmits mapper statement) :
    catchesText mapper (under .omit options) (prunedCatches catches) =
      catchesText mapper (under .omit options) catches := by
  induction catches with
  | nil => rfl
  | cons clause rest ih =>
    obtain ⟨first, later⟩ := List.forall_mem_cons.1 each
    rw [prunedCatches, catchesText, catchesText, blockText_prunedBlock mapper options _ first,
      ih later]

/-- The list behind `finally` keeps its text, and its braces if it had some. -/
theorem blockText_prunedEnding (finallyBody : List Statement)
    (each : ∀ statement ∈ finallyBody, StatementOmits mapper statement) :
    blockText mapper (under .omit options)
        (if isHollow finallyBody then finallyBody else prunedBlock finallyBody) =
      blockText mapper (under .omit options) finallyBody ∧
    (if isHollow finallyBody then finallyBody else prunedBlock finallyBody).isEmpty =
      finallyBody.isEmpty := by
  cases hollow : isHollow finallyBody with
  | true => exact ⟨rfl, rfl⟩
  | false => exact ⟨blockText_prunedBlock mapper options _ each, isEmpty_prunedBlock hollow⟩

theorem statementText_pruned (statement : Statement) : StatementOmits mapper statement := by
  induction statement with
  | assign left right =>
    intro options
    simp only [Statement.pruned, statementText, under, expressionText_filled]
  | branch test thenBody elseBody thenEach elseEach =>
    intro options
    have tests := expressionText_filled mapper test
    simp only [Statement.pruned, statementText, blockText_prunedBlock mapper options _ thenEach,
      elseBranchText_prunedElse mapper options _ elseEach]
    simp only [under, tests]
  | expression value => exact fun _ => expressionText_filled mapper value
  | loop init test step body initText stepText each =>
    intro options
    simp only [Statement.pruned, statementText, blockText_prunedBlock mapper options _ each,
      initText options, stepText options]
    simp only [under, expressionText_filled]
  | returning value =>
    intro options
    cases value with
    | none => rfl
    | some value =>
      simp only [Statement.pruned, Option.map_some, statementText, under, expressionText_filled]
  | throw value =>
    intro options
    simp only [Statement.pruned, statementText, under, expressionText_filled]
  | guarded body catches finallyBody bodyEach catchEach finallyEach =>
    -- the list behind `finally` is looked at twice: for its text and for being there
    intro options
    obtain ⟨text, braces⟩ := blockText_prunedEnding mapper options finallyBody finallyEach
    simp only [Statement.pruned, statementText, blockText_prunedBlock mapper options _ bodyEach,
      catchesText_prunedCatches mapper options _ catchEach, text, braces]
  | declare type name init =>
    intro options
    cases init with
    | none => rfl
    | some init =>
      simp only [Statement.pruned, Option.map_some, statementText, under, expressionText_filled]
  | comment | snippet | unsupported => exact fun _ => rfl

end Statements

section Declarations

variable (mapper : TypeMapper) (options : Options)

theorem memberText_pruned (member : Member) :
    memberText mapper (under .omit options) member.pruned =
      memberText mapper (under .omit options) member := by
  cases member with
  | method method =>
    have each : ∀ statement ∈ method.body, StatementOmits mapper statement :=
      fun statement _ => statementText_pruned mapper statement
    simp only [Member.pruned, memberText, methodText,
      blockText_prunedBlock mapper options method.body each]
    rfl
  | field | property | snippet => rfl

theorem memberTexts_pruned (members : List Member) :
    memberTexts mapper (under .omit options) (members.map Member.pruned) =
      memberTexts mapper (under .omit options) members := by
  induction members with
  | nil => rfl
  | cons member rest ih =>
    rw [List.map_cons, memberTexts, memberTexts, memberText_pruned mapper options member, ih]

theorem literal?_filled (expression : Expression) :
    expression.filled.literal? = expression.literal? := by
  cases expression <;> rfl

theorem enumMemberText_pruned (enumName : String) (member : Member) :
    enumMemberText enumName member.pruned = enumMemberText enumName member := by
  cases member with
  | field name type init =>
    cases init with
    | none => rfl
    | some init => simp only [Member.pruned, Option.map_some, enumMemberText, literal?_filled]
  | property | method | snippet => rfl

theorem enumMemberTexts_pruned (enumName : String) (members : List Member) :
    enumMemberTexts enumName (members.map Member.pruned) = enumMemberTexts enumName members := by
  induction members with
  | nil => rfl
  | cons member rest ih =>
    rw [List.map_cons, enumMemberTexts, enumMemberTexts, enumMemberText_pruned, ih]

theorem membersText_pruned (declaration : Declaration) :
    membersText mapper (under .omit options) declaration.pruned =
      membersText mapper (under .omit options) declaration := by
  have kind : declaration.pruned.isEnum = declaration.isEnum := rfl
  have members : declaration.pruned.members = declaration.members.map Member.pruned := rfl
  have name : declaration.pruned.name = declaration.name := rfl
  have texts : memberTexts mapper (under .omit options).nested
      (declaration.members.map Member.pruned) =
        memberTexts mapper (under .omit options).nested declaration.members :=
    memberTexts_pruned mapper options.nested declaration.members
  simp only [membersText, kind, members, name, texts, enumMemberTexts_pruned]

theorem elseBranchText_of_gaps {body : List Statement} (gaps : body.all Statement.isGap = true) :
    elseBranchText mapper (under .omit options) (some body) =
      .ok ("\n" ++ options.margin ++ "\x7b\n" ++ options.margin ++ "\x7d") := by
  rw [elseBranchText, blockText_of_gaps mapper options gaps]
  change Except.ok _ = _
  simp only [String.append_empty]
  rfl

/-- A list behind `finally` has braces when it is there, even if none of its statements has a
text. -/
theorem statementText_of_isHollow (body : List Statement) (catches : List (CatchClause Statement))
    {finallyBody : List Statement} (hollow : isHollow finallyBody = true) :
    statementText mapper (under .omit options) (.guarded body catches finallyBody) =
      (statementText mapper (under .omit options) (.guarded body catches [])).map
        (· ++ "\n" ++ options.margin ++ "finally \x7b\n" ++ options.margin ++ "\x7d") := by
  -- whether there are braces depends on the list, and what is between them on its texts
  obtain ⟨there, gaps⟩ := (Bool.and_eq_true _ _).mp hollow
  have nonempty : finallyBody.isEmpty = false := by simpa using there
  have margin : (under .omit options).margin = options.margin := rfl
  simp only [statementText, blockText_of_gaps mapper options gaps, nonempty, margin]
  cases blockText mapper (under .omit options) body with
  | error error => rfl
  | ok bodyText =>
    cases catchesText mapper (under .omit options) catches with
    | error error => rfl
    | ok catchText =>
      refine congrArg Except.ok ?_
      simp [String.append_assoc]

theorem declarationText_pruned (declaration : Declaration) :
    declarationText mapper (under .omit options) declaration.pruned =
      declarationText mapper (under .omit options) declaration := by
  have head : headText mapper (under .omit options) declaration.pruned =
      headText mapper (under .omit options) declaration := rfl
  rw [declarationText, declarationText, membersText_pruned, head]

theorem gaps_of_mem_pruned {declaration : Declaration} {name : String} {type : TypeRef}
    {init : Expression} (inside : .field name type (some init) ∈ declaration.pruned.members) :
    init.gaps = [] := by
  obtain ⟨member, -, field⟩ := List.mem_map.1 inside
  cases member with
  | field own ownType value =>
    obtain ⟨-, -, same⟩ := Member.field.inj field
    obtain ⟨value, rfl, rfl⟩ := Option.map_eq_some_iff.1 same
    exact value.gaps_filled
  | property | method | snippet => nomatch field

/-- Under the tolerant policy a declaration is rendered as if the nodes without text had been taken
out. Then none is left except behind a `finally` that was hollow, which keeps its braces just like
an alternative branch that has become empty. -/
theorem declarationText_omission (declaration : Declaration) :
    declarationText mapper (under .omit options) declaration =
      declarationText mapper (under .omit options) declaration.pruned ∧
    ((∀ member ∈ declaration.members, ∀ statement ∈ member.body, statement.EndsFull) →
      declaration.pruned.gaps = []) ∧
    (∀ name type init, .field name type (some init) ∈ declaration.pruned.members →
      init.gaps = []) ∧
    (∀ body, prunedBlock body = [] →
      elseBranchText mapper (under .omit options) (some body) =
        .ok ("\n" ++ options.margin ++ "\x7b\n" ++ options.margin ++ "\x7d")) ∧
    ∀ body catches finallyBody, isHollow finallyBody = true →
      statementText mapper (under .omit options) (.guarded body catches finallyBody) =
        (statementText mapper (under .omit options) (.guarded body catches [])).map
          (· ++ "\n" ++ options.margin ++ "finally \x7b\n" ++ options.margin ++ "\x7d") := by
  refine ⟨(declarationText_pruned mapper options declaration).symm, declaration.gaps_pruned,
    fun _ _ _ => gaps_of_mem_pruned, ?_, ?_⟩
  · intro body emptied
    exact elseBranchText_of_gaps mapper options (prunedBlock_eq_nil_iff.1 emptied)
  · intro body catches finallyBody hollow
    exact statementText_of_isHollow mapper options body catches hollow

def gappedClass : Declaration :=
  { kind := .classType, name := "A"
    members := [.method {
      name := "f"
      body := [
        .unsupported .goto,
        .branch (.variable "x") [.unsupported .goto] (some [.unsupported .labeled]),
        .loop (.unsupported .attachEvent) (.unsupported .cast) (.snippet "y")
          [.guarded [.unsupported .goto] [] []],
        .expression (.call .this "g" [.unsupported .typeOf, .variable "z"])] }] }

def gaplessClass : Declaration :=
  { kind := .classType, name := "A"
    members := [.method {
      name := "f"
      body := [
        .branch (.variable "x") [] (some []),
        .loop (.snippet "") (.snippet "") (.snippet "y") [.guarded [] [] []],
        .expression (.call .this "g" [.snippet "", .variable "z"])] }] }

theorem declarationText_omission_gappedClass :
    gaplessClass.gaps = [] ∧
      declarationText typeMapper (under .omit {}) gappedClass =
        declarationText typeMapper (under .omit {}) gaplessClass ∧
      statementText typeMapper (under .omit {}) (.guarded [] [] [.unsupported .goto]) =
        .ok "try \x7b\n\x7d\nfinally \x7b\n\x7d" := by
  have pruned : gappedClass.pruned = gaplessClass := rfl
  obtain ⟨same, gapless, -, -, ending⟩ := declarationText_omission typeMapper {} gappedClass
  rw [pruned] at same gapless
  exact ⟨gapless (by decide), same, (ending [] [] [.unsupported .goto] rfl).trans rfl⟩

end Declarations

end ApiClient.TypeScript
