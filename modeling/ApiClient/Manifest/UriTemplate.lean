import ApiClient.Text.Lines

/-! Relative addresses with variables in braces.

A variable may carry a constraint after a colon or a default after an equals sign, and a question
mark at the end of its name; its name is what stands before them. A brace that is never closed is
literal text.
-/

set_option autoImplicit false

namespace ApiClient.Manifest

inductive UriPart where
  | literal (text : String)
  | variable (name : String)
  deriving DecidableEq

def UriPart.variable? : UriPart → Option String
  | .literal _ => none
  | .variable name => some name

namespace UriTemplate

def variableName (raw : List Char) : String :=
  String.ofList (Text.trimEnd (· == '?') (raw.takeWhile fun c => c != ':' && c != '='))

def literalPart (text : List Char) : List UriPart :=
  if text.isEmpty then [] else [.literal (String.ofList text)]

/-- The parts of a template of which `literal` and, after an opening brace, `raw` have been read
since the last part. -/
def scan (literal : List Char) (raw : Option (List Char)) : List Char → List UriPart
  | [] =>
    match raw with
    | none => literalPart literal
    | some raw => literalPart (literal ++ '\x7b' :: raw)
  | c :: rest =>
    match raw with
    | none => if c = '\x7b' then scan literal (some []) rest else scan (literal ++ [c]) none rest
    | some raw =>
      if c = '\x7d' then literalPart literal ++ .variable (variableName raw) :: scan [] none rest
      else scan literal (some (raw ++ [c])) rest

def parts (template : String) : List UriPart :=
  scan [] none template.toList

def variableNames (template : String) : List String :=
  (parts template).filterMap UriPart.variable?

end UriTemplate

end ApiClient.Manifest
