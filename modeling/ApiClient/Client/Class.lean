import ApiClient.Client.Function

/-! The client class: a constructor and one method for each operation, all of different names. -/

set_option autoImplicit false

namespace ApiClient.Client

open ApiClient.Manifest ApiClient.Tree

def constructorText : String :=
  "constructor(private baseUri: string, private http: HttpClient) \x7b\x7d"

/-- Builds the methods in order. `seen` holds the method names so far, each with its
operation. -/
def buildMethods (builder : FunctionBuilder) :
    List (String × String) → List ApiOperation → Except ClientError (List Method)
  | _, [] => .ok []
  | seen, operation :: rest => do
    let method ← builder.build operation
    match seen.lookup method.name with
    | some first => throw (.duplicateMethod method.name first operation.name)
    | none =>
      let methods ← buildMethods builder ((method.name, operation.name) :: seen) rest
      return method :: methods

def buildClass (builder : FunctionBuilder) (name : String) (operations : List ApiOperation) :
    Except ClientError Declaration := do
  let methods ← buildMethods builder [] operations
  return {
    kind := .classType
    name
    members := .snippet constructorText :: methods.map .method }

end ApiClient.Client
