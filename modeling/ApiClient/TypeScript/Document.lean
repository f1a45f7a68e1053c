import ApiClient.Json.Parser
import ApiClient.Layout.CodeFile
import ApiClient.TypeScript.Declaration
import ApiClient.TypeScript.TypeNames

/-! Rendering declarations that are stored as data: one declaration or an array of them. -/

set_option autoImplicit false

namespace ApiClient.TypeScript

open ApiClient.Layout ApiClient.Tree

inductive DocumentError where
  | invalid
  | render (name : String) (cause : EmitError)
  deriving DecidableEq

namespace DocumentError

def message : DocumentError → String
  | .invalid => "Invalid declaration tree"
  | .render name _ => "Failed to render '" ++ name ++ "'"

def cause? : DocumentError → Option String
  | .invalid => none
  | .render _ cause => some cause.message

end DocumentError

def nestingLimit : Nat := 127

/-- Data is taken for a declaration where it can be one, and for an array of them otherwise. -/
def declarationsOfJson? (json : Json) : Option (List Declaration) :=
  (Declaration.read? .shared json).map ([·]) <|> Json.listOf? (Declaration.read? .shared) json

def readDeclarations? (text : String) : Option (List Declaration) :=
  Json.parse? nestingLimit text >>= declarationsOfJson?

def renderAll (mapper : TypeMapper) (options : Options) :
    List Declaration → Except DocumentError (List String)
  | [] => .ok []
  | declaration :: rest => do
    let text ← (declarationText mapper options declaration).mapError (.render declaration.name)
    let texts ← renderAll mapper options rest
    return text :: texts

def renderDocument (options : Options) (text : String) : Except DocumentError String := do
  match readDeclarations? text with
  | none => throw .invalid
  | some declarations =>
    let texts ← renderAll typeMapper options declarations
    return (CodeFile.addAll {} texts).render

end ApiClient.TypeScript
