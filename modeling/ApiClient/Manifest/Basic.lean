import ApiClient.Manifest.HttpMethod
import ApiClient.Tree.TypeRef

/-! The description of a web interface: the client class and the operations it offers. -/

set_option autoImplicit false

namespace ApiClient.Manifest

open ApiClient.Tree

structure ApiParameter where
  name : String
  type : TypeRef
  documentation : Option String := none
  /-- Sent as the body of a request and not through its address. -/
  fromBody : Bool := false

structure ApiOperation where
  name : String
  method : HttpMethod
  path : String
  documentation : Option String := none
  /-- Operations that return nothing have no response. -/
  response : Option TypeRef := none
  responseDocumentation : Option String := none
  parameters : List ApiParameter := []

structure ClientConfig where
  name : String
  camelCase : Bool := true
  header : Option String := none

structure ApiDescription where
  client : ClientConfig
  operations : List ApiOperation := []

/-- Whether two names differ at most in the case of basic Latin letters. -/
def sameName (left right : String) : Bool :=
  left.toList.map Char.toLower == right.toList.map Char.toLower

namespace ApiOperation

def parameter? (operation : ApiOperation) (name : String) : Option ApiParameter :=
  operation.parameters.find? fun parameter => sameName parameter.name name

def bodyParameter? (operation : ApiOperation) : Option ApiParameter :=
  operation.parameters.find? (·.fromBody)

end ApiOperation

namespace ApiParameter

def read? (medium : Json.Medium) (json : Json) : Option ApiParameter := do
  let fields ← json.record? medium ["name", "type", "documentation", "from_body"]
  return {
    name := ← fields.required? "name" Json.string?
    type := ← fields.required? "type" (TypeRef.read? medium)
    documentation := ← fields.optional? "documentation" Json.string?
    fromBody := ← fields.default? "from_body" false Json.bool? }

end ApiParameter

namespace ApiOperation

def fieldNames : List String :=
  ["name", "method", "path", "documentation", "response", "response_documentation", "parameters"]

def readMethod? : Json → Option HttpMethod :=
  Json.named? HttpMethod.ofName? .text

def read? (medium : Json.Medium) (json : Json) : Option ApiOperation := do
  let fields ← json.record? medium fieldNames
  return {
    name := ← fields.required? "name" Json.string?
    method := ← fields.required? "method" (Json.named? HttpMethod.ofName? medium)
    path := ← fields.required? "path" Json.string?
    documentation := ← fields.optional? "documentation" Json.string?
    response := ← fields.optional? "response" (TypeRef.read? medium)
    responseDocumentation := ← fields.optional? "response_documentation" Json.string?
    parameters := ← fields.default? "parameters" [] (Json.listOf? (ApiParameter.read? medium)) }

def ofJson? : Json → Option ApiOperation :=
  read? .text

end ApiOperation

namespace ClientConfig

def read? (medium : Json.Medium) (json : Json) : Option ClientConfig := do
  let fields ← json.record? medium ["name", "camel_case", "header"]
  return {
    name := ← fields.required? "name" Json.string?
    camelCase := ← fields.default? "camel_case" true Json.bool?
    header := ← fields.optional? "header" Json.string? }

end ClientConfig

namespace ApiDescription

def read? (medium : Json.Medium) (json : Json) : Option ApiDescription := do
  let fields ← json.record? medium ["client", "operations"]
  return {
    client := ← fields.required? "client" (ClientConfig.read? medium)
    operations := ← fields.default? "operations" [] (Json.listOf? (ApiOperation.read? medium)) }

end ApiDescription

end ApiClient.Manifest
