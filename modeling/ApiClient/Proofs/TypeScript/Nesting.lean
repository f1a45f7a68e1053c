import ApiClient.Proofs.Layout.Pieces
import ApiClient.Proofs.Tree.Words
import ApiClient.Proofs.TypeScript.Copied
import ApiClient.TypeScript.TypeNames

/-! Rendered code is indented by its braces.

The depth goes down a rendering in the options while the braces are written one by one, so every
piece of code says where the machine that reads braces stands before and after it. Types and
expressions stay within a line, statements return to the line and the brace they started at, and
blocks consist of whole lines one brace further in.
-/

set_option autoImplicit false

namespace ApiClient.TypeScript

open ApiClient.Layout ApiClient.Tree ApiClient.Text

section Types

theorem simpleName_plain {name : String} (plain : Plain name) : Plain (simpleName name) := by
  unfold simpleName
  split_ifs
  case neg => exact plain
  all_goals decide

theorem inline_comma : Inline ", " := .of_calm (by decide)

theorem angled_solid {name : String} {args : List String} (solid : Solid name)
    (each : ∀ arg ∈ args, Solid arg) : Solid (angled name args) := by
  have inner : Inline (", ".intercalate args) :=
    .intercalate inline_comma fun arg member => (each arg member).toInline
  exact ((solid.append (.of_calm (by decide))).append inner).append (.of_calm (by decide))

theorem markNullable_solid {text : String} (solid : Solid text) : Solid (markNullable text) := by
  have mark : Inline "?" := .of_calm (by decide)
  unfold markNullable
  split
  · exact solid
  · exact solid.append mark

theorem dictionary_solid {key value : String} (first : Inline key) (second : Inline value) :
    Solid ("\x7b[id: " ++ key ++ "]: " ++ value ++ "\x7d") := by
  have between : Inline "]: " := .of_calm (by decide)
  have front : OneLine "\x7b[id: " := by decide
  have brace : OneLine "\x7d" := by decide
  have starts : Starts "\x7b[id: " := by decide
  refine ⟨⟨?_, fun indent depth opened => ?_⟩, (((starts.append _).append _).append _).append _⟩
  · exact (((front.append first.oneLine).append between.oneLine).append second.oneLine).append brace
  · have opening : Reads indent depth (.code opened) (.code (opened + 1)) "\x7b[id: " := rfl
    have names :=
      (opening.append (first.reads indent depth _)).append (between.reads indent depth _)
    exact (names.append (second.reads indent depth _)).append reads_closing

theorem genericName_solid {name : String} {args : List String} (plain : Plain name)
    (each : ∀ arg ∈ args, Solid arg) : Solid (genericName name args) := by
  have own : Solid (simpleName name) := (simpleName_plain plain).solid
  have closing : Inline ">" := .of_calm (by decide)
  have array : Solid "Array<" := Plain.solid (by decide)
  have promise : Solid "Promise<" := Plain.solid (by decide)
  unfold genericName
  dsimp only
  split
  · exact own
  · next arg =>
    have inner := each arg (List.mem_singleton_self arg)
    split_ifs
    · exact markNullable_solid inner
    · exact (array.append inner.toInline).append closing
    · exact (promise.append inner.toInline).append closing
    · exact angled_solid own each
  · next key value =>
    have first := each key (by simp)
    have second := each value (by simp)
    split_ifs
    · exact dictionary_solid first.toInline second.toInline
    · exact angled_solid own each
  · exact angled_solid own each

theorem typeText_solid (type : TypeRef) (plain : ∀ name ∈ type.names, Plain name) :
    Solid (typeMapper.type type) := by
  induction type with
  | named name nullable args ih =>
    obtain ⟨own, inner⟩ := List.forall_mem_cons.1 plain
    have each : ∀ arg ∈ spelling.types args, Solid arg := by
      rw [Spelling.types_eq_map]
      exact List.forall_mem_map.2 fun type member =>
        ih type member (forall_mem_namesOfTypes.1 inner type member)
    have text : Solid (if args.isEmpty then spelling.name name
        else spelling.generic name (spelling.types args)) := by
      split
      · exact (simpleName_plain own).solid
      · exact genericName_solid own each
    change Solid (spelling.type _)
    rw [Spelling.type]
    cases nullable with
    | false => exact text
    | true => exact markNullable_solid text

theorem splitNullable_inline {text : String} (inline : Inline text) :
    Inline (splitNullable text).1 := by
  obtain ⟨back, whole, marks⟩ := exists_trimEnd_append (· == nullableMark) text.toList
  have both : String.ofList (trimEnd (· == nullableMark) text.toList) ++ String.ofList back =
      text := by
    rw [← String.ofList_append, ← whole, String.ofList_toList]
  have calm : Calm (String.ofList back) := by
    intro c member
    rw [String.toList_ofList] at member
    rw [eq_of_beq (marks c member)]
    decide
  rw [← both] at inline
  exact inline.of_append_calm calm

end Types

section Expressions

theorem literalText_solid (value : Literal) : Solid (literalText value) := by
  cases value with
  | null => exact Plain.solid (by decide)
  | bool value => cases value <;> exact Plain.solid (by decide)
  | int value =>
    exact Plain.solid (.of_numerals (Number.numerals_wholeText value) (Number.wholeText_ne_empty _))
  | float value =>
    exact Plain.solid
      (.of_numerals (Number.numerals_plainText value) (Number.plainText_ne_empty _))
  | string text =>
    have quote : Starts "\"" := by decide
    exact ⟨.doubleQuoted text, (quote.append _).append _⟩

theorem called_solid {front : String} {texts : List String} (before : Solid front)
    (each : ∀ text ∈ texts, Inline text) :
    Solid (front ++ "(" ++ ", ".intercalate texts ++ ")") := by
  have inner : Inline (", ".intercalate texts) := .intercalate inline_comma each
  exact ((before.append (.of_calm (by decide))).append inner).append (.of_calm (by decide))

theorem selected_solid {front name : String} (before : Solid front) (plain : Plain name) :
    Solid (front ++ "." ++ name) :=
  (before.append (.of_calm (by decide))).append plain.solid.toInline

theorem typed_solid {name : String} {type : TypeRef}
    (plain : ∀ word ∈ name :: type.names, Plain word) :
    Solid (name ++ ": " ++ typeMapper.type type) := by
  obtain ⟨first, second⟩ := List.forall_mem_cons.1 plain
  exact (first.solid.append (.of_calm (by decide))).append (typeText_solid type second).toInline

theorem argumentTexts_inline (args : List Expression)
    (each : ∀ arg ∈ args, arg.IsPlain → Gives Solid (expressionText typeMapper .reject arg))
    (plain : ∀ part ∈ partsOfArgs args, ∀ word ∈ part.words, Plain word) :
    Gives (∀ text ∈ ·, Inline text) (argumentTexts typeMapper .reject args) := by
  induction args with
  | nil => exact .ok nofun
  | cons arg rest ih =>
    obtain ⟨here, after⟩ := List.forall_mem_cons.1 each
    obtain ⟨first, later⟩ := List.forall_mem_append.1 plain
    exact (here first).bind fun _ text => (ih after later).bind_ok fun _ texts =>
      List.forall_mem_cons.2 ⟨text.toInline, texts⟩

theorem expressionText_solid (expression : Expression) (plain : expression.IsPlain) :
    Gives Solid (expressionText typeMapper .reject expression) := by
  induction expression with
  | argument name | snippet name | variableRef name =>
    exact .ok (plain _ (List.mem_singleton_self _) name (List.mem_singleton_self name)).solid
  | field target name ih | property target name ih =>
    obtain ⟨own, inside⟩ := List.forall_mem_cons.1 plain
    exact (ih inside).bind_ok fun _ text =>
      selected_solid text (own name (List.mem_singleton_self _))
  | call target method args ih each =>
    obtain ⟨own, inside⟩ := List.forall_mem_cons.1 plain
    obtain ⟨first, others⟩ := List.forall_mem_append.1 inside
    refine (ih first).bind fun _ text => ?_
    exact (argumentTexts_inline args each others).bind_ok fun _ texts =>
      called_solid (selected_solid text (own method (List.mem_singleton_self _))) texts
  | methodRef target method typeArgs ih =>
    obtain ⟨own, inside⟩ := List.forall_mem_cons.1 plain
    obtain ⟨name, names⟩ := List.forall_mem_cons.1 own
    refine (ih inside).bind_ok fun _ text => called_solid (selected_solid text name) ?_
    exact List.forall_mem_map.2 fun type member =>
      (typeText_solid type (forall_mem_namesOfTypes.1 names type member)).toInline
  | create type args each =>
    obtain ⟨own, inside⟩ := List.forall_mem_cons.1 plain
    have new : Solid "new " := Plain.solid (by decide)
    exact (argumentTexts_inline args each inside).bind_ok fun _ texts =>
      called_solid (new.append (typeText_solid type own).toInline) texts
  | parameter name type => exact .ok (typed_solid (plain _ (List.mem_singleton_self _)))
  | literal value => exact .ok (literalText_solid value)
  | this => exact .ok (Plain.solid (by decide))
  | typeName type => exact .ok (typeText_solid type (plain _ (List.mem_singleton_self _)))
  | unsupported form => exact nofun

end Expressions

/-- Options for a rendering that starts `depth` units in and has `opened` braces around it. -/
structure Level (depth opened : Nat) (options : Options) : Prop where
  rejects : options.unsupported = .reject
  depth_eq : options.depth = depth + opened

/-- A statement can be rendered at any level, and it returns to where it starts. -/
def Nests (depth : Nat) (statement : Statement) : Prop :=
  statement.IsPlain → (∀ word ∈ statement.wholeWords, Plain word) →
    ∀ (options : Options) (opened : Nat), Level depth opened options →
      Gives (Stands options.indent depth opened (.code opened))
        (statementText typeMapper options statement)

section Statements

variable {depth opened : Nat} {options : Options}

theorem Level.nested (level : Level depth opened options) :
    Level depth (opened + 1) options.nested :=
  ⟨level.rejects, congrArg (· + 1) level.depth_eq⟩

theorem Level.margin (level : Level depth opened options) :
    options.margin = options.indent.times (depth + opened) :=
  congrArg options.indent.times level.depth_eq

theorem Level.expressionText (level : Level depth opened options) {expression : Expression}
    (plain : expression.IsPlain) :
    Gives Solid (expressionText typeMapper options.unsupported expression) := by
  rw [level.rejects]
  exact expressionText_solid expression plain

section Lines

variable (level : Level depth opened options)

include level

theorem Level.indented {last : Position} {text : String} (starts : Starts text)
    (reads : Reads options.indent depth (.code opened) last text) :
    Reads options.indent depth (.line opened) last (options.margin ++ text) := by
  rw [level.margin]
  exact reads_indented starts reads

theorem Level.nextLine {last : Position} {text : String} (starts : Starts text)
    (reads : Reads options.indent depth (.code opened) last text) :
    Reads options.indent depth (.code opened) last ("\n" ++ options.margin ++ text) := by
  rw [String.append_assoc]
  exact reads_feed.append (level.indented starts reads)

theorem Level.closing {first : Position} {text : String}
    (before : Reads options.indent depth first (.line (opened + 1)) text) :
    Reads options.indent depth first (.code opened) (text ++ options.margin ++ "\x7d") := by
  rw [String.append_assoc, level.margin]
  exact before.append reads_closingLine

theorem Level.closes {text : String}
    (before : Stands options.indent depth opened (.line (opened + 1)) text) :
    Stands options.indent depth opened (.code opened) (text ++ options.margin ++ "\x7d") :=
  ⟨level.closing before.reads, (before.starts.append _).append _⟩

theorem Level.lines {texts : List String} (plain : ∀ text ∈ texts, Plain text) :
    Reads options.indent depth (.line opened) (.line opened)
      ("\n".intercalate (texts.map (options.margin ++ ·)) ++ "\n") := by
  induction texts with
  | nil => exact reads_blankLine
  | cons text rest ih =>
    obtain ⟨first, later⟩ := List.forall_mem_cons.1 plain
    have solid := first.solid
    have line := (level.indented solid.starts (solid.reads ..)).append reads_feed
    cases rest with
    | nil => simpa using line
    | cons next rest =>
      rw [List.map_cons, List.map_cons, String.intercalate_cons_cons, String.append_assoc]
      exact line.append (ih later)

theorem Level.snippetChunk {text : String} (plain : ∀ line ∈ Text.lines text, Plain line) :
    Reads options.indent depth (.line opened) (.line opened)
      (snippetChunk options.margin text) := by
  unfold TypeScript.snippetChunk
  rw [String.append_assoc]
  exact reads_blankLine.append (level.lines plain)

theorem Level.chunk {statement : Statement} (nests : Nests depth statement)
    (plain : statement.IsPlain) :
    Gives (Reads options.indent depth (.line opened) (.line opened))
      (chunk options statement (statementText typeMapper options statement)) := by
  have ending : Reads options.indent depth (.code opened) (.line opened) ";\n" := rfl
  cases statement with
  | snippet text =>
    obtain ⟨lines, -⟩ := plain _ (List.mem_singleton_self _)
    exact .ok (level.snippetChunk lines)
  | unsupported form =>
    unfold TypeScript.chunk statementText
    rw [level.rejects]
    exact nofun
  | guarded body catches finallyBody =>
    -- a blank line comes first
    refine (nests plain (List.forall_mem_nil _) options opened level).map fun text stands => ?_
    have line := level.indented stands.starts stands.reads
    simpa only [String.append_assoc] using reads_blankLine.append (line.append ending)
  | _ =>
    exact (nests plain (List.forall_mem_nil _) options opened level).map fun _ stands =>
      (level.indented stands.starts stands.reads).append ending

theorem Level.blockText {body : List Statement} (each : ∀ statement ∈ body, Nests depth statement)
    (plain : ∀ part ∈ partsOfBlock body, part.HasPlainWords) :
    Gives (Reads options.indent depth (.line (opened + 1)) (.line (opened + 1)))
      (blockText typeMapper options body) := by
  induction body with
  | nil => exact .ok .empty
  | cons statement rest ih =>
    obtain ⟨here, after⟩ := List.forall_mem_cons.1 each
    obtain ⟨first, later⟩ := List.forall_mem_append.1 plain
    exact (level.nested.chunk here first).bind fun _ text =>
      (ih after later).bind_ok fun _ texts => text.append texts

theorem Level.elseBranchText {elseBody : Option (List Statement)}
    (each : ∀ body ∈ elseBody, ∀ statement ∈ body, Nests depth statement)
    (plain : ∀ part ∈ partsOfElse elseBody, part.HasPlainWords) :
    Gives (Reads options.indent depth (.code opened) (.code opened))
      (elseBranchText typeMapper options elseBody) := by
  cases elseBody with
  | none => exact .ok .empty
  | some body =>
    refine (level.blockText (each body rfl) plain).bind_ok fun _ inner => ?_
    exact level.closing ((level.nextLine (by decide) reads_opening).append inner)

theorem Level.catchesText {catches : List (CatchClause Statement)}
    (each : ∀ clause ∈ catches, ∀ statement ∈ clause.body, Nests depth statement)
    (names : ∀ name ∈ catches.map CatchClause.localName, Plain name)
    (plain : ∀ part ∈ partsOfCatches catches, part.HasPlainWords) :
    Gives (Reads options.indent depth (.code opened) (.code opened))
      (catchesText typeMapper options catches) := by
  have keyword : Solid "catch (" := Plain.solid (by decide)
  have opening : Reads options.indent depth (.code opened) (.line (opened + 1)) ") \x7b\n" := rfl
  induction catches with
  | nil => exact .ok .empty
  | cons clause rest ih =>
    obtain ⟨localName, body⟩ := clause
    obtain ⟨here, after⟩ := List.forall_mem_cons.1 each
    obtain ⟨name, others⟩ := List.forall_mem_cons.1 names
    obtain ⟨first, later⟩ := List.forall_mem_append.1 plain
    refine (level.blockText here first).bind fun _ inner => ?_
    refine (ih after others later).bind_ok fun _ more => ?_
    have head := ((level.nextLine keyword.starts (keyword.reads ..)).append
      (name.solid.reads ..)).append opening
    exact (level.closing (head.append inner)).append more

end Lines

theorem statementText_nests (depth : Nat) (statement : Statement) : Nests depth statement := by
  -- the options stay general: a block renders its statements one unit deeper
  induction statement with
  | assign left right =>
    intro plain _ options opened level
    obtain ⟨-, own⟩ := plain _ (List.mem_singleton_self _)
    obtain ⟨first, others⟩ := List.forall_mem_cons.1 own
    have second := others right (List.mem_singleton_self right)
    have equals : Inline " = " := .of_calm (by decide)
    refine (level.expressionText first).bind fun _ leftText => ?_
    refine (level.expressionText second).bind_ok fun _ rightText => ?_
    exact ((leftText.append equals).append rightText.toInline).stands ..
  | comment text =>
    intro plain _ options opened _
    obtain ⟨words, -⟩ := plain _ (List.mem_singleton_self _)
    exact .ok ((words text (List.mem_singleton_self text)).solid.stands ..)
  | branch test thenBody elseBody thenEach elseEach =>
    intro plain _ options opened level
    obtain ⟨⟨-, own⟩, inside⟩ := List.forall_mem_cons.1 plain
    obtain ⟨first, others⟩ := List.forall_mem_append.1 inside
    have keyword : Solid "if (" := Plain.solid (by decide)
    have opening : Reads options.indent depth (.code opened) (.line (opened + 1)) ")\x7b\n" := rfl
    refine (level.expressionText (own test (List.mem_singleton_self test))).bind
      fun _ testText => ?_
    refine (level.blockText thenEach first).bind fun _ thenText => ?_
    refine (level.elseBranchText elseEach others).bind_ok fun _ elseText => ?_
    have head := ((keyword.append testText.toInline).stands ..).append opening
    exact (level.closes (head.append thenText)).append elseText
  | expression value =>
    intro plain _ options opened level
    obtain ⟨-, own⟩ := plain _ (List.mem_singleton_self _)
    exact (level.expressionText (own value (List.mem_singleton_self value))).imp
      fun _ text => text.stands ..
  | loop init test step body initNests stepNests each =>
    intro plain _ options opened level
    obtain ⟨⟨words, own⟩, inside⟩ := List.forall_mem_cons.1 plain
    obtain ⟨initWords, stepWords⟩ := List.forall_mem_append.1 words
    obtain ⟨front, inner⟩ := List.forall_mem_append.1 inside
    obtain ⟨first, second⟩ := List.forall_mem_append.1 front
    have keyword : Solid "for (" := Plain.solid (by decide)
    have separator : Inline "; " := .of_calm (by decide)
    have opening : Reads options.indent depth (.code opened) (.line (opened + 1)) ")\x7b\n" := rfl
    -- the statements in the head stay at the level of the loop, also those with blocks
    refine (initNests first initWords options opened level).bind fun _ initText => ?_
    refine (level.expressionText (own test (List.mem_singleton_self test))).bind
      fun _ testText => ?_
    refine (stepNests second stepWords options opened level).bind fun _ stepText => ?_
    refine (level.blockText each inner).bind_ok fun _ bodyText => ?_
    have header := ((((keyword.stands ..).append initText.reads).append
      (separator.reads ..)).append (testText.reads ..)).append (separator.reads ..)
    exact level.closes (((header.append stepText.reads).append opening).append bodyText)
  | returning value =>
    intro plain _ options opened level
    obtain ⟨-, own⟩ := plain _ (List.mem_singleton_self _)
    cases value with
    | none => exact .ok ((Plain.solid (by decide)).stands ..)
    | some value =>
      have keyword : Solid "return " := Plain.solid (by decide)
      exact (level.expressionText (own value (List.mem_singleton_self value))).bind_ok
        fun _ text => (keyword.append text.toInline).stands ..
  | throw value =>
    intro plain _ options opened level
    obtain ⟨-, own⟩ := plain _ (List.mem_singleton_self _)
    have keyword : Solid "throw " := Plain.solid (by decide)
    exact (level.expressionText (own value (List.mem_singleton_self value))).bind_ok
      fun _ text => (keyword.append text.toInline).stands ..
  | guarded body catches finallyBody bodyEach catchEach finallyEach =>
    intro plain _ options opened level
    obtain ⟨⟨names, -⟩, inside⟩ := List.forall_mem_cons.1 plain
    obtain ⟨front, third⟩ := List.forall_mem_append.1 inside
    obtain ⟨first, second⟩ := List.forall_mem_append.1 front
    have opening : Stands options.indent depth opened (.line (opened + 1)) "try \x7b\n" :=
      ⟨rfl, by decide⟩
    have last : Stands options.indent depth opened (.line (opened + 1)) "finally \x7b\n" :=
      ⟨rfl, by decide⟩
    refine (level.blockText bodyEach first).bind fun _ bodyText => ?_
    refine (level.catchesText catchEach names second).bind fun _ catchText => ?_
    refine (level.blockText finallyEach third).bind_ok fun _ finallyText => ?_
    refine ((level.closes (opening.append bodyText)).append catchText).append ?_
    -- without statements the last clause is left out
    cases finallyBody.isEmpty with
    | true => exact .empty
    | false => exact level.closing ((level.nextLine last.starts last.reads).append finallyText)
  | declare type name init =>
    intro plain _ options opened level
    obtain ⟨words, own⟩ := plain _ (List.mem_singleton_self _)
    obtain ⟨first, names⟩ := List.forall_mem_cons.1 words
    have space : Inline " " := .of_calm (by decide)
    have equals : Inline " = " := .of_calm (by decide)
    have head := ((typeText_solid type names).append space).append first.solid.toInline
    cases init with
    | none => exact .ok (head.stands ..)
    | some init =>
      exact (level.expressionText (own init (List.mem_singleton_self init))).bind_ok
        fun _ text => ((head.append equals).append text.toInline).stands ..
  | snippet text =>
    intro _ words options opened _
    exact .ok ((words text (List.mem_singleton_self text)).solid.stands ..)
  | unsupported form =>
    intro _ _ options _ level
    unfold statementText
    rw [level.rejects]
    exact nofun

end Statements

section Members

variable {depth opened : Nat} {options : Options}

theorem nameAndType_solid {name : String} {type : TypeRef}
    (plain : ∀ word ∈ name :: type.names, Plain word) :
    Solid (nameAndType typeMapper name type) := by
  obtain ⟨first, names⟩ := List.forall_mem_cons.1 plain
  have base := splitNullable_inline (typeText_solid type names).toInline
  have mark : Inline (if (splitNullable (typeMapper.type type)).2 then "?: " else ": ") := by
    split <;> exact .of_calm (by decide)
  exact (first.solid.append mark).append base

theorem returnClause_inline {method : Method}
    (plain : ∀ name ∈ namesOfTypes method.returnType.toList, Plain name) :
    Inline (returnClause typeMapper method) := by
  have colon : Inline ": " := .of_calm (by decide)
  unfold returnClause
  split
  · next type _ returned =>
    rw [returned] at plain
    have names : ∀ name ∈ type.names, Plain name :=
      forall_mem_namesOfTypes.1 plain type (List.mem_singleton_self type)
    dsimp only
    split_ifs
    · exact .empty
    · exact .of_calm (by decide)
    · exact colon.append (typeText_solid type names).toInline
  · exact .empty

theorem signature_solid {method : Method} (plain : ∀ word ∈ method.words, Plain word) :
    Solid ((if method.isConstructor then "constructor" else method.name) ++ "(" ++
      ", ".intercalate (method.parameters.map fun p => p.name ++ ": " ++ typeMapper.type p.type) ++
      ")" ++ returnClause typeMapper method) := by
  obtain ⟨first, others⟩ := List.forall_mem_cons.1 plain
  obtain ⟨params, returned⟩ := List.forall_mem_append.1 others
  have name : Solid (if method.isConstructor then "constructor" else method.name) := by
    split
    · exact Plain.solid (by decide)
    · exact first.solid
  refine (called_solid name ?_).append (returnClause_inline returned)
  refine List.forall_mem_map.2 fun param member => (typed_solid fun word part => ?_).toInline
  exact params word (List.mem_flatMap.2 ⟨param, member, part⟩)

theorem Level.closingLine (level : Level depth opened options) :
    Reads options.indent depth (.line (opened + 1)) (.line opened)
      (options.margin ++ "\x7d\n") := by
  have brace : "\x7d\n" = "\x7d" ++ "\n" := by decide
  rw [brace, ← String.append_assoc, level.margin]
  exact reads_closingLine.append reads_feed

theorem Level.methodText (level : Level depth opened options) {method : Method}
    (undocumented : method.doc = []) (plain : ∀ word ∈ method.words, Plain word)
    (body : ∀ statement ∈ method.body, statement.IsPlain) :
    Gives (Reads options.indent depth (.line opened) (.line opened))
      (methodText typeMapper options method) := by
  have parts : ∀ part ∈ partsOfBlock method.body, part.HasPlainWords :=
    forall_mem_partsOfBlock.2 body
  have signature := signature_solid plain
  have empty : docText options [] = "" := rfl
  unfold TypeScript.methodText
  rw [undocumented, empty]
  refine (level.blockText (fun statement _ => statementText_nests depth statement) parts).bind_ok
    fun _ inner => ?_
  have head := level.indented (signature.starts.append _)
    ((signature.reads ..).append reads_opening)
  have whole := (reads_blankLine.append (head.append inner)).append level.closingLine
  simpa only [String.append_assoc, String.empty_append] using whole

theorem Level.memberText (level : Level depth opened options) {member : Member}
    (undocumented : member.doc = []) (plain : ∀ word ∈ member.words, Plain word)
    (body : ∀ statement ∈ member.body, statement.IsPlain) :
    Gives (Reads options.indent depth (.line opened) (.line opened))
      (memberText typeMapper options member) := by
  have ending : Reads options.indent depth (.code opened) (.line opened) ";\n" := rfl
  cases member with
  | field name type _ | property name type =>
    have solid := nameAndType_solid plain
    exact .ok ((level.indented solid.starts (solid.reads ..)).append ending)
  | method method => exact level.methodText undocumented plain body
  | snippet text =>
    have solid := (plain text (List.mem_singleton_self text)).solid
    exact .ok ((level.indented solid.starts (solid.reads ..)).append reads_feed)

theorem Level.memberTexts (level : Level depth opened options) {members : List Member}
    (undocumented : ∀ member ∈ members, member.doc = [])
    (plain : ∀ member ∈ members, ∀ word ∈ member.words, Plain word)
    (bodies : ∀ member ∈ members, ∀ statement ∈ member.body, statement.IsPlain) :
    Gives (Reads options.indent depth (.line opened) (.line opened))
      (memberTexts typeMapper options members) := by
  induction members with
  | nil => exact .ok .empty
  | cons member rest ih =>
    obtain ⟨bare, others⟩ := List.forall_mem_cons.1 undocumented
    obtain ⟨words, after⟩ := List.forall_mem_cons.1 plain
    obtain ⟨body, later⟩ := List.forall_mem_cons.1 bodies
    exact (level.memberText bare words body).bind fun _ text =>
      (ih others after later).bind_ok fun _ texts => text.append texts

end Members

section Declarations

variable {options : Options} {declaration : Declaration}

theorem typeParamText_inline {param : TypeParam} (plain : ∀ word ∈ param.words, Plain word) :
    Inline (typeParamText typeMapper param) := by
  obtain ⟨first, names⟩ := List.forall_mem_cons.1 plain
  have keyword : Inline " extends " := .of_calm (by decide)
  unfold typeParamText
  split
  · exact first.solid.toInline
  · next bound others bounds =>
    have text : Solid (typeMapper.type bound) :=
      typeText_solid bound (forall_mem_namesOfTypes.1 names bound (by simp [bounds]))
    exact (first.solid.toInline.append keyword).append text.toInline

theorem genericClause_inline
    (plain : ∀ param ∈ declaration.typeParams, ∀ word ∈ param.words, Plain word) :
    Inline (genericClause typeMapper declaration) := by
  have opening : Inline "<" := .of_calm (by decide)
  unfold genericClause
  split
  · exact .empty
  · have params := Inline.intercalate inline_comma (List.forall_mem_map.2 fun param member =>
      typeParamText_inline (plain param member))
    exact (opening.append params).append (.of_calm (by decide))

theorem baseClause_inline (plain : ∀ name ∈ namesOfTypes declaration.bases, Plain name) :
    Inline (baseClause typeMapper declaration) := by
  have keyword : Inline " extends " := .of_calm (by decide)
  have comma : Inline "," := .of_calm (by decide)
  unfold baseClause
  dsimp only
  split
  · exact .empty
  · refine keyword.append (comma.intercalate (List.forall_mem_map.2 fun type member => ?_))
    have names := forall_mem_namesOfTypes.1 plain type (List.mem_of_mem_filter member)
    exact (typeText_solid type names).toInline

theorem headText_reads (plain : ∀ word ∈ declaration.words, Plain word) :
    Reads options.indent options.depth (.line 0) (.code 1)
      (headText typeMapper options declaration) := by
  obtain ⟨name, others⟩ := List.forall_mem_cons.1 plain
  obtain ⟨params, bases⟩ := List.forall_mem_append.1 others
  have generic := genericClause_inline fun param member word part =>
    params word (List.mem_flatMap.2 ⟨param, member, part⟩)
  have base := baseClause_inline bases
  have keyword : Solid declaration.kind.keyword := by
    cases declaration.kind <;> exact Plain.solid (by decide)
  have visible : Solid "export " := Plain.solid (by decide)
  have front : Solid ((if declaration.exported then "export " else "") ++
      declaration.kind.keyword) := by
    split
    · exact visible.append keyword.toInline
    · exact keyword
  have space : Inline " " := .of_calm (by decide)
  have line := (((front.append space).append name.solid.toInline).append generic).append base
  have brace : Reads options.indent options.depth (.code 0) (.code 1) " \x7b" := rfl
  have whole := reads_indented (line.starts.append _) ((line.reads _ options.depth 0).append brace)
  simpa only [headText, Options.margin, String.append_assoc, Nat.add_zero] using whole

theorem membersText_reads (rejects : options.unsupported = .reject)
    (notEnum : declaration.isEnum = false)
    (undocumented : ∀ member ∈ declaration.members, member.doc = [])
    (plain : declaration.IsPlain) :
    Gives (Reads options.indent options.depth (.code 1) (.line 0))
      (membersText typeMapper options declaration) := by
  have level : Level options.depth 0 options := ⟨rejects, rfl⟩
  unfold membersText
  rw [notEnum, if_neg Bool.false_ne_true]
  refine (level.nested.memberTexts undocumented plain.members plain.bodies).bind_ok
    fun _ texts => ?_
  have whole : Reads options.indent options.depth (.code 1) (.line 0) _ :=
    (reads_feed.append texts).append level.closingLine
  simpa only [String.append_assoc] using whole

/-- A class or an interface without documentation whose words are plain is indented by its
braces. -/
theorem declarationText_indentedByBraces (options : Options) (declaration : Declaration)
    (rejects : options.unsupported = .reject) (notEnum : declaration.isEnum = false)
    (undocumented : ∀ member ∈ declaration.members, member.doc = [])
    (plain : declaration.IsPlain) {text : String}
    (rendered : declarationText typeMapper options declaration = .ok text) :
    IndentedByBraces options.indent options.depth text.toList := by
  have whole : Gives (Reads options.indent options.depth (.line 0) (.line 0))
      (declarationText typeMapper options declaration) :=
    (membersText_reads rejects notEnum undocumented plain).bind_ok fun _ members =>
      (headText_reads plain.head).append members
  exact indentedByBraces_of_run (whole text rendered)

/-- Braces of a type, of a string and of blocks, one of them in the head of a loop. -/
def bracedClass : Declaration :=
  { kind := .classType, name := "A"
    members := [
      .field "f" (.generic "Dictionary" [.string, .int]) none,
      .method {
        name := "g"
        body := [
          .loop (.branch (.variable "x") [.returning (some (.string "\x7d\""))] (some []))
            (.variable "y") (.snippet "z") [.guarded [] [⟨"e", [.snippet "a\nb"]⟩] []]] }] }

def bracedText : String :=
  "\texport class A \x7b\n\t\tf: \x7b[id: string]: number\x7d;\n\n\t\tg()\x7b\n" ++
  "\t\t\tfor (if (x)\x7b\n\t\t\t\treturn \"\x7d\\\"\";\n" ++
  "\t\t\t\x7d\n\t\t\t\x7b\n\t\t\t\x7d; y; z)\x7b\n" ++
  "\n\t\t\t\ttry \x7b\n\t\t\t\t\x7d\n\t\t\t\tcatch (e) \x7b\n" ++
  "\n\t\t\t\t\ta\n\t\t\t\t\tb\n\t\t\t\t\x7d;\n\t\t\t\x7d;\n\t\t\x7d\n\t\x7d\n"

theorem declarationText_indentedByBraces_bracedClass :
    bracedClass.IsPlain ∧ IndentedByBraces .tab 1 bracedText.toList := by
  have plain : bracedClass.IsPlain := ⟨by decide, by decide, by decide⟩
  refine ⟨plain, ?_⟩
  exact declarationText_indentedByBraces { depth := 1, indent := .tab, unsupported := .reject }
    bracedClass rfl rfl (by decide) plain (by decide +kernel)

end Declarations

end ApiClient.TypeScript
