import ApiClient.Layout.Indent
import ApiClient.Text.Quoted
import ApiClient.Tree.Expression
import ApiClient.TypeScript.EmitError
import ApiClient.TypeScript.TypeMapper

/-! Text of expressions.

An expression is rendered from left to right, so the error is that of the leftmost part that has
no text.
-/

set_option autoImplicit false

namespace ApiClient.TypeScript

open ApiClient.Layout ApiClient.Tree

/-- The text of a node that has none: nothing, unless such nodes are rejected. -/
def unsupportedText (policy : Policy) (node : String) : Except EmitError String :=
  match policy with
  | .omit => .ok ""
  | .reject => .error (.unsupported node)

def literalText : Literal → String
  | .string text => Text.doubleQuoted text
  | value => value.text

mutual

def expressionText (mapper : TypeMapper) (policy : Policy) : Expression → Except EmitError String
  | .argument name => .ok name
  | .variable name => .ok name
  | .field target name => do
    return (← expressionText mapper policy target) ++ "." ++ name
  | .property target name => do
    return (← expressionText mapper policy target) ++ "." ++ name
  | .call target method args => do
    let targetText ← expressionText mapper policy target
    let argTexts ← argumentTexts mapper policy args
    return targetText ++ "." ++ method ++ "(" ++ ", ".intercalate argTexts ++ ")"
  | .methodRef target method typeArgs => do
    let targetText ← expressionText mapper policy target
    return targetText ++ "." ++ method ++ "(" ++ ", ".intercalate (typeArgs.map mapper.type) ++ ")"
  | .create type args => do
    let argTexts ← argumentTexts mapper policy args
    return "new " ++ mapper.type type ++ "(" ++ ", ".intercalate argTexts ++ ")"
  | .parameter name type => .ok (name ++ ": " ++ mapper.type type)
  | .literal value => .ok (literalText value)
  | .snippet text => .ok text
  | .this => .ok "this"
  | .typeName type => .ok (mapper.type type)
  | .unsupported form => unsupportedText policy form.phrase

def argumentTexts (mapper : TypeMapper) (policy : Policy) :
    List Expression → Except EmitError (List String)
  | [] => .ok []
  | arg :: rest => do
    let text ← expressionText mapper policy arg
    let texts ← argumentTexts mapper policy rest
    return text :: texts

end

end ApiClient.TypeScript
