import ApiClient.Client.Naming
import ApiClient.Manifest.Error
import ApiClient.Manifest.Basic
import ApiClient.Manifest.UriTemplate
import ApiClient.Text.Blank
import ApiClient.Text.Quoted
import ApiClient.Text.Search
import ApiClient.Tree.Declaration
import ApiClient.TypeScript.TypeMapper

/-! The client method of an operation.

A method takes the parameters of its operation, promises the response, and calls the verb of the
client with the address and, for verbs with a body, the parameter that is sent. The address is a
concatenation of quoted literals and parameter names. Verbs without such a call get an empty body.
-/

set_option autoImplicit false

namespace ApiClient.Client

open ApiClient.Manifest ApiClient.Tree ApiClient.TypeScript

inductive ClientError where
  | unknownUriVariable (operation wanted : String)
  | duplicateMethod (method first second : String)
  deriving DecidableEq

def ClientError.message : ClientError → String
  | .unknownUriVariable operation wanted => unknownVariableMessage operation wanted
  | .duplicateMethod method first second =>
    "operations '" ++ first ++ "' and '" ++ second ++ "' both generate the method '" ++ method ++
      "'"

/-- How methods are made from operations: the mapper spells types in documentation. -/
structure FunctionBuilder where
  mapper : TypeMapper
  camel : Bool

namespace FunctionBuilder

def methodName (builder : FunctionBuilder) (operation : ApiOperation) : String :=
  Client.methodName builder.camel operation.name

def paramLine (builder : FunctionBuilder) (parameter : ApiParameter) : String :=
  Text.trimBlankEnd ("@param \x7b" ++ builder.mapper.type parameter.type ++ "\x7d " ++
    parameter.name ++ " " ++ parameter.documentation.getD "")

def returnLine (builder : FunctionBuilder) (operation : ApiOperation) : String :=
  let type := match operation.response with
    | some response => builder.mapper.type response
    | none => "void"
  Text.trimBlankEnd ("@return \x7b" ++ type ++ "\x7d " ++
    operation.responseDocumentation.getD "")

def docLines (builder : FunctionBuilder) (operation : ApiOperation) : List String :=
  operation.documentation.toList ++
  [operation.method.name ++ " " ++ operation.path] ++
  operation.parameters.map builder.paramLine ++
  [builder.returnLine operation]

end FunctionBuilder

/-- The parts of a path inside single quotes; a variable interrupts them. -/
def spliceParts (operation : ApiOperation) : List UriPart → Except ClientError String
  | [] => .ok ""
  | .literal text :: rest => do
    return Text.escapeSingleQuoted text ++ (← spliceParts operation rest)
  | .variable name :: rest =>
    match operation.parameter? name with
    | none => .error (.unknownUriVariable operation.name name)
    | some parameter => do
      return "'+" ++ parameter.name ++ "+'" ++ (← spliceParts operation rest)

def emptyLiteral : List Char := ['+', '\'', '\'']

def uriText (operation : ApiOperation) : Except ClientError String := do
  let path ← spliceParts operation (UriTemplate.parts operation.path)
  let text := "this.baseUri + '" ++ path ++ "'"
  return String.ofList (Text.eraseFirst emptyLiteral text.toList)

def sender? : HttpMethod → Option String
  | .get => some "get"
  | .delete => some "delete"
  | .post => some "post"
  | .put => some "put"
  | .patch => none
  | .head => none
  | .options => none

def bodyArgs (operation : ApiOperation) : List Expression :=
  if operation.method.hasBody then
    match operation.bodyParameter? with
    | some parameter => [.argument parameter.name]
    | none => [.literal .null]
  else []

def requestBody (operation : ApiOperation) : Except ClientError (List Statement) :=
  match sender? operation.method with
  | none => .ok []
  | some sender => do
    let uri ← uriText operation
    return [.returning (some (.call (.field .this "http") sender
      (.snippet uri :: bodyArgs operation)))]

def responseTask (operation : ApiOperation) : TypeRef :=
  match operation.response with
  | some response => TypeRef.generic "Task" [response]
  | none => { name := "Task" }

def FunctionBuilder.build (builder : FunctionBuilder) (operation : ApiOperation) :
    Except ClientError Method := do
  let body ← requestBody operation
  return {
    name := builder.methodName operation
    parameters := operation.parameters.map fun parameter => ⟨parameter.name, parameter.type⟩
    returnType := some (responseTask operation)
    body
    doc := builder.docLines operation }

end ApiClient.Client
