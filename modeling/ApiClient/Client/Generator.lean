import ApiClient.Client.Class
import ApiClient.Layout.CodeFile
import ApiClient.TypeScript.Declaration
import ApiClient.TypeScript.TypeNames

/-! The client file of a description. -/

set_option autoImplicit false

namespace ApiClient.Client

open ApiClient.Layout ApiClient.Manifest ApiClient.TypeScript

inductive GenerateError where
  | build (cause : ClientError)
  | render (name : String) (cause : EmitError)
  | createDirectory (path : String)
  | writeFile (path : String)
  deriving DecidableEq

namespace GenerateError

def message : GenerateError → String
  | .build _ => "failed to build client class"
  | .render name _ => "failed to render '" ++ name ++ "'"
  | .createDirectory path => "failed to create '" ++ path ++ "'"
  | .writeFile path => "failed to write '" ++ path ++ "'"

def cause? : GenerateError → Option String
  | .build cause => some cause.message
  | .render _ cause => some cause.message
  | .createDirectory _ => none
  | .writeFile _ => none

end GenerateError

/-- The class of a configuration and its operations, for checks that render nothing. -/
def configuredClass (config : ClientConfig) (operations : List ApiOperation) :
    Except ClientError Tree.Declaration :=
  buildClass ⟨typeMapper, config.camelCase⟩ config.name operations

def clientClass (manifest : ApiDescription) : Except ClientError Tree.Declaration :=
  buildClass ⟨typeMapper, manifest.client.camelCase⟩ manifest.client.name manifest.operations

def preview (options : Options) (manifest : ApiDescription) : Except GenerateError String := do
  let declaration ← (clientClass manifest).mapError .build
  let code ← (declarationText typeMapper options declaration).mapError
    (.render declaration.name)
  return (CodeFile.add { header := manifest.client.header } code).render

end ApiClient.Client
