import ApiClient.Manifest.Basic
import ApiClient.Manifest.Error
import ApiClient.Manifest.Identifier
import ApiClient.Manifest.UriTemplate

/-! Checks on a description beyond its form.

The client is checked first, then each operation in turn: its name, whether an earlier operation
has the same name, its parameters, the number of bodies, and the variables of its path. The first
violation is the error.
-/

set_option autoImplicit false

namespace ApiClient.Manifest

abbrev Checked := Except ManifestError Unit

def checkName (source : Source) (context name : String) : Checked :=
  match Identifier.problem? name with
  | none => .ok ()
  | some problem => .error (source.invalidIdentifier name context problem.reason)

/-- Parameters whose names differ from each other and from `seen` beyond the case of letters. -/
def checkParameters (source : Source) (operation : String) :
    List String → List ApiParameter → Checked
  | _, [] => .ok ()
  | seen, parameter :: rest => do
    checkName source "parameter" parameter.name
    if seen.any (sameName parameter.name) then
      throw (source.invalid
        ("operation '" ++ operation ++ "' declares parameter '" ++ parameter.name ++
          "' more than once")
        (some parameter.name))
    checkParameters source operation (parameter.name :: seen) rest

def checkVariables (source : Source) (operation : ApiOperation) : List String → Checked
  | [] => .ok ()
  | wanted :: rest => do
    if (operation.parameter? wanted).isNone then
      throw (source.unknownUriVariable operation.name operation.path wanted)
    checkVariables source operation rest

def checkOperation (source : Source) (seen : List String) (operation : ApiOperation) :
    Checked := do
  checkName source "operation" operation.name
  if operation.name ∈ seen then
    throw (source.duplicateOperation operation.name)
  checkParameters source operation.name [] operation.parameters
  if 1 < operation.parameters.countP (·.fromBody) then
    throw (source.invalid
      ("operation '" ++ operation.name ++ "' has more than one body parameter")
      (some operation.name))
  checkVariables source operation (UriTemplate.variableNames operation.path)

def checkOperations (source : Source) : List String → List ApiOperation → Checked
  | _, [] => .ok ()
  | seen, operation :: rest => do
    checkOperation source seen operation
    checkOperations source (operation.name :: seen) rest

def validate (source : Source) (manifest : ApiDescription) : Checked := do
  checkName source "client" manifest.client.name
  checkOperations source [] manifest.operations

end ApiClient.Manifest
