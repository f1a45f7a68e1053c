import ApiClient.Proofs.Layout.Depth
import ApiClient.Proofs.TypeScript.Copied
import ApiClient.TypeScript.TypeNames

/-! Rendering deeper moves the text to the right and changes nothing else.

The rendering at some depth and the one `extra` units deeper are followed side by side: both fail
with one error, or the second text is the first one moved. The text of a statement starts and
stops within a line and the text of a block consists of whole lines, so each piece says where it
starts and stops and the pieces fit together. A margin can be moved only where there is one, so
statements are followed from depth one on, where the members of a declaration have them.
-/

set_option autoImplicit false

namespace ApiClient.TypeScript

open ApiClient.Layout ApiClient.Tree ApiClient.Text

/-- Two runs fail with the same error or end in related texts. -/
inductive Parallel (related : String → String → Prop) :
    Except EmitError String → Except EmitError String → Prop where
  | failed (error : EmitError) : Parallel related (.error error) (.error error)
  | ended {text moved : String} (holds : related text moved) :
    Parallel related (.ok text) (.ok moved)

namespace Parallel

variable {related : String → String → Prop} {run deep : Except EmitError String}

theorem bind {result : String → String → Prop} {next deepNext : String → Except EmitError String}
    (first : Parallel related run deep)
    (second : ∀ text moved, related text moved → Parallel result (next text) (deepNext moved)) :
    Parallel result (run >>= next) (deep >>= deepNext) := by
  cases first with
  | failed error => exact .failed error
  | ended holds => exact second _ _ holds

theorem map {result : String → String → Prop} {f g : String → String}
    (first : Parallel related run deep)
    (second : ∀ text moved, related text moved → result (f text) (g moved)) :
    Parallel result (run.map f) (deep.map g) := by
  cases first with
  | failed error => exact .failed error
  | ended holds => exact .ended (second _ _ holds)

theorem bind_ok {result : String → String → Prop} {f g : String → String}
    (first : Parallel related run deep)
    (second : ∀ text moved, related text moved → result (f text) (g moved)) :
    Parallel result (run >>= fun text => .ok (f text)) (deep >>= fun moved => .ok (g moved)) :=
  first.map second

theorem of_gives {good : String → Prop} (gives : Gives good run)
    (moves : ∀ text, good text → related text text) : Parallel related run run := by
  cases run with
  | error error => exact .failed error
  | ok text => exact .ended (moves text (gives text rfl))

end Parallel

section Pieces

variable (options : Options) (extra : Nat)

theorem expressionText_parallel (mapper : TypeMapper) {expression : Expression}
    (copied : AllOneLine (expression.copied mapper)) :
    Parallel (Shifted (options.indent.times extra) false false)
      (expressionText mapper options.unsupported expression)
      (expressionText mapper (options.sunk extra).unsupported expression) :=
  .of_gives (expressionText_oneLine mapper options.unsupported expression copied)
    fun _ => .within

theorem margin_shifted (positive : 0 < options.depth) :
    Shifted (options.indent.times extra) true false options.margin
      (options.sunk extra).margin :=
  options.indent.times_shifted extra positive

theorem nextLine_shifted (positive : 0 < options.depth) (start : Bool) :
    Shifted (options.indent.times extra) start false ("\n" ++ options.margin)
      ("\n" ++ (options.sunk extra).margin) :=
  Shifted.feed.append (margin_shifted options extra positive)

theorem closing_shifted (positive : 0 < options.depth) {text moved : String} {start : Bool}
    (before : Shifted (options.indent.times extra) start true text moved) :
    Shifted (options.indent.times extra) start false (text ++ options.margin ++ "\x7d")
      (moved ++ (options.sunk extra).margin ++ "\x7d") :=
  (before.append (margin_shifted options extra positive)).append (.within (by decide))

theorem snippetChunk_shifted (positive : 0 < options.depth) (text : String) (start : Bool) :
    Shifted (options.indent.times extra) start true (snippetChunk options.margin text)
      (snippetChunk (options.sunk extra).margin text) := by
  have margin := margin_shifted options extra positive
  obtain ⟨stop, lines⟩ := Shifted.lines fun line (member : line ∈ Text.lines text) =>
    margin.append (.within (oneLine_of_mem_lines member))
  exact (Shifted.feed.append lines).append .feed

end Pieces

/-- A statement from depth one on moves with its depth. -/
def Sinks (mapper : TypeMapper) (extra : Nat) (statement : Statement) : Prop :=
  AllOneLine (statement.copied mapper) → ∀ options : Options, 0 < options.depth →
    Parallel (Shifted (options.indent.times extra) false false)
      (statementText mapper options statement)
      (statementText mapper (options.sunk extra) statement)

section Statements

variable (mapper : TypeMapper) (extra : Nat)

theorem chunk_parallel (options : Options) (positive : 0 < options.depth) (statement : Statement)
    (sinks : Sinks mapper extra statement)
    (copied : (∀ text, statement ≠ .snippet text) → AllOneLine (statement.copied mapper)) :
    Parallel (Shifted (options.indent.times extra) true true)
      (chunk options statement (statementText mapper options statement))
      (chunk (options.sunk extra) statement
        (statementText mapper (options.sunk extra) statement)) := by
  have margin := margin_shifted options extra positive
  have semicolon : EndsLine ";\n" := by decide
  cases statement with
  | snippet text => exact .ended (snippetChunk_shifted options extra positive text true)
  | unsupported form =>
    -- either policy leaves no text, and a line that has not started still has not
    exact .of_gives (unsupportedText_gives options.unsupported form.phrase) fun _ empty =>
      empty ▸ .empty
  | guarded =>
    exact (sinks (copied nofun) options positive).map fun _ _ text =>
      ((nextLine_shifted options extra positive true).append text).append (.ending semicolon)
  | _ =>
    exact (sinks (copied nofun) options positive).map fun _ _ text =>
      (margin.append text).append (.ending semicolon)

theorem copiedOfBlock_cons (statement : Statement) (rest : List Statement)
    (copied : AllOneLine (copiedOfBlock mapper (statement :: rest))) :
    ((∀ text, statement ≠ .snippet text) → AllOneLine (statement.copied mapper)) ∧
      AllOneLine (copiedOfBlock mapper rest) := by
  cases statement with
  | snippet text => exact ⟨fun other => absurd rfl (other text), copied⟩
  | _ =>
    obtain ⟨first, later⟩ := allOneLine_append.1 copied
    exact ⟨fun _ => first, later⟩

theorem blockText_parallel (options : Options) (body : List Statement)
    (each : ∀ statement ∈ body, Sinks mapper extra statement)
    (copied : AllOneLine (copiedOfBlock mapper body)) :
    Parallel (Shifted (options.indent.times extra) true true) (blockText mapper options body)
      (blockText mapper (options.sunk extra) body) := by
  induction body with
  | nil => exact .ended .empty
  | cons statement rest ih =>
    obtain ⟨first, later⟩ := List.forall_mem_cons.1 each
    obtain ⟨here, after⟩ := copiedOfBlock_cons mapper statement rest copied
    have positive : 0 < options.nested.depth := Nat.succ_pos options.depth
    have text := chunk_parallel mapper extra options.nested positive statement first here
    exact text.bind fun _ _ text => (ih later after).bind_ok fun _ _ texts => text.append texts

theorem elseBranchText_parallel (options : Options) (positive : 0 < options.depth)
    (elseBody : Option (List Statement))
    (each : ∀ body ∈ elseBody, ∀ statement ∈ body, Sinks mapper extra statement)
    (copied : AllOneLine (copiedOfElse mapper elseBody)) :
    Parallel (Shifted (options.indent.times extra) false false)
      (elseBranchText mapper options elseBody)
      (elseBranchText mapper (options.sunk extra) elseBody) := by
  have opening : EndsLine "\x7b\n" := by decide
  cases elseBody with
  | none => exact .ended .empty
  | some body =>
    refine (blockText_parallel mapper extra options body (each body rfl) copied).bind_ok ?_
    intro _ _ inner
    have head := (nextLine_shifted options extra positive false).append (.ending opening)
    exact closing_shifted options extra positive (head.append inner)

theorem catchesText_parallel (options : Options) (positive : 0 < options.depth)
    (catches : List (CatchClause Statement))
    (each : ∀ clause ∈ catches, ∀ statement ∈ clause.body, Sinks mapper extra statement)
    (copied : AllOneLine (copiedOfCatches mapper catches)) :
    Parallel (Shifted (options.indent.times extra) false false)
      (catchesText mapper options catches)
      (catchesText mapper (options.sunk extra) catches) := by
  have keyword : OneLine "catch (" := by decide
  have opening : EndsLine ") \x7b\n" := by decide
  induction catches with
  | nil => exact .ended .empty
  | cons clause rest ih =>
    obtain ⟨localName, body⟩ := clause
    obtain ⟨first, later⟩ := List.forall_mem_cons.1 each
    obtain ⟨front, after⟩ := allOneLine_append.1 copied
    obtain ⟨name, here⟩ := allOneLine_cons.1 front
    refine (blockText_parallel mapper extra options body first here).bind fun _ _ inner => ?_
    refine (ih later after).bind_ok fun _ _ others => ?_
    have head := (((nextLine_shifted options extra positive false).append
      (.within keyword)).append (.within name)).append (.ending opening)
    exact (closing_shifted options extra positive (head.append inner)).append others

theorem statementText_parallel (statement : Statement) : Sinks mapper extra statement := by
  -- the options stay general: a block renders its statements one unit deeper
  induction statement with
  | assign left right =>
    intro copied options _
    obtain ⟨first, second⟩ := allOneLine_append.1 copied
    have equals : OneLine " = " := by decide
    refine (expressionText_parallel options extra mapper first).bind fun _ _ leftText => ?_
    refine (expressionText_parallel options extra mapper second).bind_ok fun _ _ rightText => ?_
    exact (leftText.append (.within equals)).append rightText
  | comment text | snippet text => exact fun copied _ _ => .ended (.within copied.head)
  | branch test thenBody elseBody thenEach elseEach =>
    intro copied options positive
    obtain ⟨front, last⟩ := allOneLine_append.1 copied
    obtain ⟨first, second⟩ := allOneLine_append.1 front
    have keyword : OneLine "if (" := by decide
    have opening : EndsLine ")\x7b\n" := by decide
    refine (expressionText_parallel options extra mapper first).bind fun _ _ testText => ?_
    refine (blockText_parallel mapper extra options thenBody thenEach second).bind
      fun _ _ thenText => ?_
    refine (elseBranchText_parallel mapper extra options positive elseBody elseEach last).bind_ok
      fun _ _ elseText => ?_
    have head := ((Shifted.within keyword).append testText).append (.ending opening)
    exact (closing_shifted options extra positive (head.append thenText)).append elseText
  | expression value =>
    intro copied options _
    exact expressionText_parallel options extra mapper copied
  | loop init test step body initSinks stepSinks each =>
    intro copied options positive
    obtain ⟨front, inner⟩ := allOneLine_append.1 copied
    obtain ⟨front, third⟩ := allOneLine_append.1 front
    obtain ⟨first, second⟩ := allOneLine_append.1 front
    have keyword : OneLine "for (" := by decide
    have separator : OneLine "; " := by decide
    have opening : EndsLine ")\x7b\n" := by decide
    refine (initSinks first options positive).bind fun _ _ initText => ?_
    refine (expressionText_parallel options extra mapper second).bind fun _ _ testText => ?_
    refine (stepSinks third options positive).bind fun _ _ stepText => ?_
    refine (blockText_parallel mapper extra options body each inner).bind_ok fun _ _ bodyText => ?_
    have header := ((((Shifted.within keyword).append initText).append (.within separator)).append
      testText).append (.within separator)
    have head := (header.append stepText).append (.ending opening)
    exact closing_shifted options extra positive (head.append bodyText)
  | returning value =>
    intro copied options _
    cases value with
    | none => exact .ended (.within (by decide))
    | some value =>
      have keyword : OneLine "return " := by decide
      exact (expressionText_parallel options extra mapper copied).bind_ok fun _ _ text =>
        (Shifted.within keyword).append text
  | throw value =>
    intro copied options _
    have keyword : OneLine "throw " := by decide
    exact (expressionText_parallel options extra mapper copied).bind_ok fun _ _ text =>
      (Shifted.within keyword).append text
  | guarded body catches finallyBody bodyEach catchEach finallyEach =>
    intro copied options positive
    obtain ⟨front, third⟩ := allOneLine_append.1 copied
    obtain ⟨first, second⟩ := allOneLine_append.1 front
    have opening : EndsLine "try \x7b\n" := by decide
    have lastOpening : EndsLine "finally \x7b\n" := by decide
    refine (blockText_parallel mapper extra options body bodyEach first).bind
      fun _ _ bodyText => ?_
    refine (catchesText_parallel mapper extra options positive catches catchEach second).bind
      fun _ _ catchText => ?_
    refine (blockText_parallel mapper extra options finallyBody finallyEach third).bind_ok
      fun _ _ finallyText => ?_
    have head := closing_shifted options extra positive
      ((Shifted.ending opening).append bodyText)
    refine (head.append catchText).append ?_
    -- without statements the last clause is left out
    cases finallyBody.isEmpty with
    | true => exact .empty
    | false =>
      have lastHead := (nextLine_shifted options extra positive false).append
        (.ending lastOpening)
      exact closing_shifted options extra positive (lastHead.append finallyText)
  | declare type name init =>
    intro copied options _
    obtain ⟨first, rest⟩ := allOneLine_cons.1 copied
    obtain ⟨second, value⟩ := allOneLine_cons.1 rest
    have space : OneLine " " := by decide
    have equals : OneLine " = " := by decide
    have head := (first.append space).append second
    cases init with
    | none => exact .ended (.within head)
    | some init =>
      exact (expressionText_parallel options extra mapper value).bind_ok fun _ _ text =>
        (Shifted.within (head.append equals)).append text
  | unsupported form =>
    intro _ options _
    exact .of_gives (unsupportedText_gives options.unsupported form.phrase) fun _ empty =>
      empty ▸ .empty

end Statements

section Members

variable (mapper : TypeMapper) (options : Options) (extra : Nat)

theorem nameAndType_oneLine {name : String} {type : TypeRef} (first : OneLine name)
    (second : OneLine (mapper.type type)) : OneLine (nameAndType mapper name type) := by
  have base : OneLine (splitNullable (mapper.type type)).1 :=
    .of_subset (trimEnd_subset _ _) second
  have mark : OneLine (if (splitNullable (mapper.type type)).2 then "?: " else ": ") := by
    split <;> decide
  exact (first.append mark).append base

theorem returnClause_oneLine {method : Method} (copied : AllOneLine (method.copied mapper)) :
    OneLine (returnClause mapper method) := by
  have colon : OneLine ": " := by decide
  unfold returnClause
  split
  · next type isFunction returned =>
    have text : OneLine (mapper.type type) :=
      copied _ (by simp [Method.copied, isFunction, returned])
    dsimp only
    split
    · exact .empty
    · split
      · decide
      · exact colon.append text
  · exact .empty

theorem signature_oneLine {method : Method} (copied : AllOneLine (method.copied mapper)) :
    OneLine ((if method.isConstructor then "constructor" else method.name) ++ "(" ++
      ", ".intercalate (method.parameters.map fun p => p.name ++ ": " ++ mapper.type p.type) ++
      ")" ++ returnClause mapper method) := by
  have name : OneLine (if method.isConstructor then "constructor" else method.name) := by
    split
    · decide
    · next isFunction => exact copied _ (by simp [Method.copied, isFunction])
  have params :
      AllOneLine (method.parameters.map fun p => p.name ++ ": " ++ mapper.type p.type) := by
    intro text member
    obtain ⟨param, found, rfl⟩ := List.mem_map.1 member
    have both : AllOneLine (param.copied mapper) := by
      intro text part
      have inParams : text ∈ method.parameters.flatMap (Parameter.copied mapper) :=
        List.mem_flatMap.2 ⟨param, found, part⟩
      exact copied text (List.mem_append_left _ (List.mem_append_right _ inParams))
    exact oneLine_typed both
  exact (oneLine_parenthesized name params).append (returnClause_oneLine mapper copied)

theorem docText_shifted (positive : 0 < options.depth) (doc : List String) :
    Shifted (options.indent.times extra) true true (docText options doc)
      (docText (options.sunk extra) doc) := by
  have sunk : LineBuffer.Sunk options.indent extra
      { indent := options.indent, depth := options.depth }
      { indent := options.indent, depth := extra + options.depth } :=
    ⟨rfl, rfl, rfl, positive, .empty⟩
  refine (sunk.docComment fun line member => ?_).text
  obtain ⟨text, -, piece⟩ := List.mem_flatMap.1 member
  exact oneLine_of_mem_bareLines piece

theorem methodText_parallel (positive : 0 < options.depth) (method : Method)
    (copied : AllOneLine (method.copied mapper)) :
    Parallel (Shifted (options.indent.times extra) true true) (methodText mapper options method)
      (methodText mapper (options.sunk extra) method) := by
  have margin := margin_shifted options extra positive
  have doc := docText_shifted options extra positive method.doc
  have signature := signature_oneLine mapper copied
  have opening : EndsLine "\x7b\n" := by decide
  have closing : EndsLine "\x7d\n" := by decide
  obtain ⟨-, inner⟩ := allOneLine_append.1 copied
  refine (blockText_parallel mapper extra options method.body
    (fun statement _ => statementText_parallel mapper extra statement) inner).bind_ok
    fun _ _ body => ?_
  have head := ((doc.append margin).append (.within signature)).append (.ending opening)
  have whole := ((head.append body).append margin).append (.ending closing)
  simpa only [String.append_assoc] using Shifted.feed.append whole

theorem memberText_parallel (positive : 0 < options.depth) (member : Member)
    (copied : AllOneLine (member.copied mapper)) :
    Parallel (Shifted (options.indent.times extra) true true) (memberText mapper options member)
      (memberText mapper (options.sunk extra) member) := by
  have margin := margin_shifted options extra positive
  have semicolon : EndsLine ";\n" := by decide
  cases member with
  | field name type _ | property name type =>
    obtain ⟨first, second⟩ := allOneLine_cons.1 copied
    have text := nameAndType_oneLine mapper first second.head
    exact .ended ((margin.append (.within text)).append (.ending semicolon))
  | method method => exact methodText_parallel mapper options extra positive method copied
  | snippet text => exact .ended ((margin.append (.within copied.head)).append .feed)

theorem memberTexts_parallel (positive : 0 < options.depth) (members : List Member)
    (copied : AllOneLine (members.flatMap (Member.copied mapper))) :
    Parallel (Shifted (options.indent.times extra) true true) (memberTexts mapper options members)
      (memberTexts mapper (options.sunk extra) members) := by
  induction members with
  | nil => exact .ended .empty
  | cons member rest ih =>
    obtain ⟨first, later⟩ := allOneLine_append.1 copied
    exact (memberText_parallel mapper options extra positive member first).bind fun _ _ text =>
      (ih later).bind_ok fun _ _ texts => text.append texts

end Members

section Declarations

variable (mapper : TypeMapper) (options : Options) (extra : Nat)

theorem marginLine_shifted {text : String} (oneLine : OneLine text) (filled : text ≠ "") :
    Shifted (options.indent.times extra) true false (options.margin ++ text)
      ((options.sunk extra).margin ++ text) := by
  have margin : OneLine options.margin := options.indent.times_oneLine options.depth
  rw [Options.margin_sunk, String.append_assoc]
  -- the margin alone may be empty, so it is moved together with the text behind it
  refine .line (margin.append oneLine) ?_
  simp [filled]

theorem closingLine_shifted :
    Shifted (options.indent.times extra) true true (options.margin ++ "\x7d\n")
      ((options.sunk extra).margin ++ "\x7d\n") := by
  have brace : "\x7d\n" = "\x7d" ++ "\n" := by decide
  have oneLine : OneLine "\x7d" := by decide
  rw [brace, ← String.append_assoc, ← String.append_assoc]
  exact (marginLine_shifted options extra oneLine (by decide)).append .feed

theorem typeParamText_oneLine {param : TypeParam} (copied : AllOneLine (param.copied mapper)) :
    OneLine (typeParamText mapper param) := by
  obtain ⟨name, bounds⟩ := allOneLine_cons.1 copied
  have keyword : OneLine " extends " := by decide
  unfold typeParamText
  cases eq : param.bounds with
  | nil => exact name
  | cons bound rest =>
    rw [eq] at bounds
    exact (name.append keyword).append (allOneLine_cons.1 bounds).1

theorem genericClause_oneLine {declaration : Declaration}
    (copied : declaration.isEnum = false →
      AllOneLine (declaration.typeParams.flatMap (TypeParam.copied mapper))) :
    OneLine (genericClause mapper declaration) := by
  have opening : OneLine "<" := by decide
  unfold genericClause
  cases kind : declaration.isEnum with
  | true => exact .empty
  | false =>
    have each : AllOneLine (declaration.typeParams.map (typeParamText mapper)) := by
      intro text member
      obtain ⟨param, found, rfl⟩ := List.mem_map.1 member
      exact typeParamText_oneLine mapper fun text part =>
        copied kind text (List.mem_flatMap.2 ⟨param, found, part⟩)
    split
    · exact .empty
    · exact (opening.append (.intercalate (by decide) each)).append (by decide)

theorem baseClause_oneLine {declaration : Declaration}
    (copied : declaration.isEnum = false →
      AllOneLine ((declaration.bases.filter mapper.derivable).map mapper.type)) :
    OneLine (baseClause mapper declaration) := by
  have keyword : OneLine " extends " := by decide
  unfold baseClause
  cases kind : declaration.isEnum with
  | true => exact .empty
  | false =>
    dsimp only
    split
    · exact .empty
    · exact keyword.append (.intercalate (by decide) (copied kind))

theorem allOneLine_of_not_isEnum {declaration : Declaration}
    (copied : AllOneLine (declaration.copied mapper)) (kind : declaration.isEnum = false) :
    AllOneLine (declaration.typeParams.flatMap (TypeParam.copied mapper)) ∧
      AllOneLine ((declaration.bases.filter mapper.derivable).map mapper.type) ∧
      AllOneLine (declaration.members.flatMap (Member.copied mapper)) := by
  obtain ⟨-, inner⟩ := allOneLine_cons.1 copied
  rw [kind, if_neg Bool.false_ne_true] at inner
  obtain ⟨front, members⟩ := allOneLine_append.1 inner
  obtain ⟨params, bases⟩ := allOneLine_append.1 front
  exact ⟨params, bases, members⟩

theorem headText_shifted (declaration : Declaration)
    (copied : AllOneLine (declaration.copied mapper)) :
    Shifted (options.indent.times extra) true false (headText mapper options declaration)
      (headText mapper (options.sunk extra) declaration) := by
  have name : OneLine declaration.name := (allOneLine_cons.1 copied).1
  have parts := allOneLine_of_not_isEnum mapper copied
  have generic := genericClause_oneLine mapper fun kind => (parts kind).1
  have base := baseClause_oneLine mapper fun kind => (parts kind).2.1
  have visibility : OneLine (if declaration.exported then "export " else "") := by
    split <;> decide
  have keyword : OneLine declaration.kind.keyword := by
    cases declaration.kind <;> decide
  have space : OneLine " " := by decide
  have brace : OneLine " \x7b" := by decide
  have line := (((((visibility.append keyword).append space).append name).append generic).append
    base).append brace
  have moved := marginLine_shifted options extra line (by simp)
  simpa only [headText, String.append_assoc] using moved

theorem enumMemberText_oneLine (enumName : String) (member : Member)
    (copied : AllOneLine member.copiedInEnum) :
    Gives OneLine (enumMemberText enumName member) := by
  have equals : OneLine "=" := by decide
  match member with
  | .field name _ none => exact .ok copied.head
  | .field name type (some init) =>
    have first : OneLine name := copied name (by unfold Member.copiedInEnum; split <;> simp_all)
    cases init with
    | literal value =>
      have text : OneLine value.text := Literal.text_oneLine value fun text eq => by
        subst eq
        exact (allOneLine_cons.1 copied).2.head
      exact .ok ((first.append equals).append text)
    | _ => exact nofun
  | .property .. | .method _ | .snippet _ => exact nofun

theorem enumMemberTexts_oneLine (enumName : String) (members : List Member)
    (copied : AllOneLine (members.flatMap Member.copiedInEnum)) :
    Gives AllOneLine (enumMemberTexts enumName members) := by
  induction members with
  | nil => exact .ok nofun
  | cons member rest ih =>
    obtain ⟨first, later⟩ := allOneLine_append.1 copied
    exact (enumMemberText_oneLine enumName member first).bind fun _ text =>
      (ih later).bind_ok fun _ texts => allOneLine_cons.2 ⟨text, texts⟩

theorem membersText_parallel (declaration : Declaration)
    (copied : AllOneLine (declaration.copied mapper)) :
    Parallel (Shifted (options.indent.times extra) false true)
      (membersText mapper options declaration)
      (membersText mapper (options.sunk extra) declaration) := by
  unfold membersText
  cases kind : declaration.isEnum with
  | true =>
    have inner := (allOneLine_cons.1 copied).2
    rw [kind, if_pos rfl] at inner
    have closing : EndsLine "\x7d\n" := by decide
    have texts := enumMemberTexts_oneLine declaration.name declaration.members inner
    -- the members share one line, and the depth does not occur in it
    have text : Gives (∃ line, OneLine line ∧ · = line ++ "\x7d\n")
        (enumMemberTexts declaration.name declaration.members >>= fun texts =>
          .ok (", ".intercalate texts ++ "\x7d\n")) :=
      texts.bind_ok fun _ each => ⟨_, .intercalate (by decide) each, rfl⟩
    exact .of_gives text fun _ ⟨_, line, eq⟩ => eq ▸ (Shifted.within line).append (.ending closing)
  | false =>
    obtain ⟨-, -, inner⟩ := allOneLine_of_not_isEnum mapper copied kind
    have positive : 0 < options.nested.depth := Nat.succ_pos options.depth
    have texts := memberTexts_parallel mapper options.nested extra positive declaration.members
      inner
    refine texts.bind_ok fun _ _ moved => ?_
    have whole : Shifted (options.indent.times extra) false true _ _ :=
      (Shifted.feed.append moved).append (closingLine_shifted options extra)
    simpa only [String.append_assoc] using whole

theorem declarationText_parallel (declaration : Declaration)
    (copied : AllOneLine (declaration.copied mapper)) :
    Parallel (Shifted (options.indent.times extra) true true)
      (declarationText mapper options declaration)
      (declarationText mapper (options.sunk extra) declaration) :=
  (membersText_parallel mapper options extra declaration copied).bind_ok fun _ _ members =>
    (headText_shifted mapper options extra declaration copied).append members

end Declarations

theorem Parallel.eq_map {margin : String} {run deep : Except EmitError String}
    (runs : Parallel (Shifted margin true true) run deep) : deep = run.map (shiftLines margin) := by
  cases runs with
  | failed error => rfl
  | ended shifted =>
    refine congrArg Except.ok ?_
    rw [shiftLines_eq_shiftFrom, ← shifted.moved_eq, String.ofList_toList]

/-- A declaration at any depth is the declaration at depth zero, moved to the right. -/
theorem declarationText_depth (mapper : TypeMapper) (options : Options) (declaration : Declaration)
    (copied : AllOneLine (declaration.copied mapper)) :
    declarationText mapper options declaration =
      (declarationText mapper { options with depth := 0 } declaration).map
        (shiftLines options.margin) :=
  (declarationText_parallel mapper { options with depth := 0 } options.depth declaration
    copied).eq_map

def manyLinesClass : Declaration :=
  { kind := .classType, name := "A"
    members := [.method {
      name := "f"
      doc := ["x\n\ny"]
      body := [.snippet "a\n\nb", .returning (some (.string "\n"))] }] }

theorem declarationText_depth_manyLinesClass :
    AllOneLine (manyLinesClass.copied typeMapper) ∧
      declarationText typeMapper { depth := 1, indent := .tab } manyLinesClass =
        .ok ("\texport class A \x7b\n\n\t\t/**\n\t\t * x\n\t\t *\n\t\t * y\n\t\t */\n" ++
          "\t\tf()\x7b\n\n\t\t\ta\n\t\t\t\n\t\t\tb\n\t\t\treturn \"\\n\";\n\t\t\x7d\n\t\x7d\n") := by
  have copied : AllOneLine (manyLinesClass.copied typeMapper) := by decide
  have depth := declarationText_depth typeMapper { depth := 1, indent := .tab } manyLinesClass
    copied
  exact ⟨copied, depth.trans (by decide +kernel)⟩

end ApiClient.TypeScript
