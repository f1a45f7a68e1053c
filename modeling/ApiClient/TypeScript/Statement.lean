import ApiClient.Text.Lines
import ApiClient.Tree.Statement
import ApiClient.TypeScript.Expression

/-! Text of statements and blocks.

The options hold the depth at which a statement stands. Its blocks are rendered one unit deeper
and closed at that depth. In a block every statement ends in a semicolon and a line feed, except
for snippets, which are copied line by line, and nodes without text.
-/

set_option autoImplicit false

namespace ApiClient.TypeScript

open ApiClient.Layout ApiClient.Tree

/-- A snippet as it stands in a block, after an empty line. -/
def snippetChunk (margin text : String) : String :=
  "\n" ++ "\n".intercalate ((Text.lines text).map (margin ++ ·)) ++ "\n"

/-- A rendered statement as it stands in a block whose lines are indented as `inner` says. -/
def chunk (inner : Options) (statement : Statement) (rendered : Except EmitError String) :
    Except EmitError String :=
  match statement with
  | .snippet text => .ok (snippetChunk inner.margin text)
  | .unsupported _ => rendered
  | .guarded .. => rendered.map fun text => "\n" ++ inner.margin ++ text ++ ";\n"
  | _ => rendered.map fun text => inner.margin ++ text ++ ";\n"

mutual

def statementText (mapper : TypeMapper) (options : Options) :
    Statement → Except EmitError String
  | .assign left right => do
    let leftText ← expressionText mapper options.unsupported left
    let rightText ← expressionText mapper options.unsupported right
    return leftText ++ " = " ++ rightText
  | .comment text => .ok text
  | .branch test thenBody elseBody => do
    let testText ← expressionText mapper options.unsupported test
    let thenText ← blockText mapper options thenBody
    let elseText ← elseBranchText mapper options elseBody
    return "if (" ++ testText ++ ")\x7b\n" ++ thenText ++ options.margin ++ "\x7d" ++ elseText
  | .expression value => expressionText mapper options.unsupported value
  | .loop init test step body => do
    let initText ← statementText mapper options init
    let testText ← expressionText mapper options.unsupported test
    let stepText ← statementText mapper options step
    let bodyText ← blockText mapper options body
    return "for (" ++ initText ++ "; " ++ testText ++ "; " ++ stepText ++ ")\x7b\n" ++ bodyText ++
      options.margin ++ "\x7d"
  | .returning (some value) => do
    return "return " ++ (← expressionText mapper options.unsupported value)
  | .returning none => .ok "return"
  | .throw value => do
    return "throw " ++ (← expressionText mapper options.unsupported value)
  | .guarded body catches finallyBody => do
    let bodyText ← blockText mapper options body
    let catchText ← catchesText mapper options catches
    let finallyText ← blockText mapper options finallyBody
    let ending := if finallyBody.isEmpty then "" else
      "\n" ++ options.margin ++ "finally \x7b\n" ++ finallyText ++ options.margin ++ "\x7d"
    return "try \x7b\n" ++ bodyText ++ options.margin ++ "\x7d" ++ catchText ++ ending
  | .declare type name none => .ok (mapper.type type ++ " " ++ name)
  | .declare type name (some init) => do
    return mapper.type type ++ " " ++ name ++ " = " ++
      (← expressionText mapper options.unsupported init)
  | .snippet text => .ok text
  | .unsupported form => unsupportedText options.unsupported form.phrase

/-- The alternative branch, a bare pair of braces on its own line. -/
def elseBranchText (mapper : TypeMapper) (options : Options) :
    Option (List Statement) → Except EmitError String
  | none => .ok ""
  | some body => do
    return "\n" ++ options.margin ++ "\x7b\n" ++ (← blockText mapper options body) ++
      options.margin ++ "\x7d"

def catchesText (mapper : TypeMapper) (options : Options) :
    List (CatchClause Statement) → Except EmitError String
  | [] => .ok ""
  | ⟨localName, body⟩ :: rest => do
    let bodyText ← blockText mapper options body
    let restText ← catchesText mapper options rest
    return "\n" ++ options.margin ++ "catch (" ++ localName ++ ") \x7b\n" ++ bodyText ++
      options.margin ++ "\x7d" ++ restText

/-- A list of statements one unit deeper than the options say. -/
def blockText (mapper : TypeMapper) (options : Options) :
    List Statement → Except EmitError String
  | [] => .ok ""
  | statement :: rest => do
    let text ← chunk options.nested statement (statementText mapper options.nested statement)
    let texts ← blockText mapper options rest
    return text ++ texts

end

end ApiClient.TypeScript
