import ApiClient.Tree.Statement

/-! Type declarations and their members. -/

set_option autoImplicit false

namespace ApiClient.Tree

inductive DeclarationKind where
  | classType
  | interfaceType
  | enumType
  deriving DecidableEq

namespace DeclarationKind

def keyword : DeclarationKind → String
  | .classType => "class"
  | .interfaceType => "interface"
  | .enumType => "enum"

def ofKeyword? : String → Option DeclarationKind
  | "class" => some .classType
  | "interface" => some .interfaceType
  | "enum" => some .enumType
  | _ => none

end DeclarationKind

structure Parameter where
  name : String
  type : TypeRef

namespace Parameter

def toJson (parameter : Parameter) : Json :=
  .object [("name", .string parameter.name), ("type", parameter.type.toJson)]

def read? (medium : Json.Medium) (json : Json) : Option Parameter := do
  let fields ← json.record? medium ["name", "type"]
  return ⟨← fields.required? "name" Json.string?,
    ← fields.required? "type" (TypeRef.read? medium)⟩

def ofJson? : Json → Option Parameter :=
  read? .text

end Parameter

/-- The name of a constructor is kept in data but not used for its text. -/
structure Method where
  name : String
  isConstructor : Bool := false
  parameters : List Parameter := []
  returnType : Option TypeRef := none
  body : List Statement := []
  doc : List String := []

namespace Method

def initializer : Method :=
  { name := "constructor", isConstructor := true }

def param (method : Method) (name : String) (type : TypeRef) : Method :=
  { method with parameters := method.parameters ++ [⟨name, type⟩] }

def returns (method : Method) (type : TypeRef) : Method :=
  { method with returnType := some type }

def statement (method : Method) (statement : Statement) : Method :=
  { method with body := method.body ++ [statement] }

def docLine (method : Method) (line : String) : Method :=
  { method with doc := method.doc ++ [line] }

def fieldNames : List String :=
  ["name", "is_constructor", "parameters", "return_type", "body", "doc"]

def toFields (method : Method) : Json.Fields :=
  [("name", .string method.name), ("is_constructor", .bool method.isConstructor),
    ("parameters", .array (method.parameters.map Parameter.toJson))] ++
  Json.ifPresent "return_type" (method.returnType.map TypeRef.toJson) ++
  [("body", .array (Statement.toJsonList method.body))] ++
  Json.unlessEmpty "doc" (method.doc.map Json.string)

def toJson (method : Method) : Json :=
  .object method.toFields

def read? (medium : Json.Medium) (json : Json) : Option Method := do
  let fields ← json.record? medium fieldNames
  return {
    name := ← fields.required? "name" Json.string?
    isConstructor := ← fields.default? "is_constructor" false Json.bool?
    parameters := ← fields.default? "parameters" [] (Json.listOf? (Parameter.read? medium))
    returnType := ← fields.optional? "return_type" (TypeRef.read? medium)
    body := ← fields.default? "body" [] (Json.listOf? (Statement.read? medium))
    doc := ← fields.default? "doc" [] (Json.listOf? Json.string?) }

def ofJson? : Json → Option Method :=
  read? .text

end Method

inductive Member where
  | field (name : String) (type : TypeRef) (init : Option Expression)
  | property (name : String) (type : TypeRef)
  | method (value : Method)
  | snippet (text : String)

namespace Member

def enumMember (name : String) (init : Option Expression) : Member :=
  .field name TypeRef.int init

def name? : Member → Option String
  | .field name _ _ => some name
  | .property name _ => some name
  | .method value => some value.name
  | .snippet _ => none

def node (variant : String) (fields : Json.Fields) : Json :=
  .object (("member", .string variant) :: fields)

def toJson : Member → Json
  | .field name type init =>
    node "field" ([("name", .string name), ("type", type.toJson)] ++
      Json.ifPresent "init" (init.map Expression.toJson))
  | .property name type => node "property" [("name", .string name), ("type", type.toJson)]
  | .method value => node "method" value.toFields
  | .snippet text => node "snippet" [("text", .string text)]

/-- The tags in the order in which they are numbered. -/
def variants : List String :=
  ["field", "property", "method", "snippet"]

def readVariant (variant : String) (body : Json) : Option Member :=
  match variant with
  | "field" => do
    let fields ← body.record? .held ["name", "type", "init"]
    return .field (← fields.required? "name" Json.string?)
      (← fields.required? "type" (TypeRef.read? .held))
      (← fields.optional? "init" (Expression.read? .held))
  | "property" => do
    let fields ← body.record? .held ["name", "type"]
    return .property (← fields.required? "name" Json.string?)
      (← fields.required? "type" (TypeRef.read? .held))
  | "method" => (Method.read? .held body).map .method
  | "snippet" => do
    let fields ← body.record? .held ["text"]
    return .snippet (← fields.required? "text" Json.string?)
  | _ => none

def read? (medium : Json.Medium) (json : Json) : Option Member := do
  let (variant, body) ← json.tagged? medium "member" variants
  readVariant variant body

def ofJson? : Json → Option Member :=
  read? .text

end Member

structure Declaration where
  kind : DeclarationKind
  name : String
  typeParams : List TypeParam := []
  bases : List TypeRef := []
  exported : Bool := true
  members : List Member := []

namespace Declaration

def isEnum (declaration : Declaration) : Bool :=
  declaration.kind == .enumType

def internal (declaration : Declaration) : Declaration :=
  { declaration with exported := false }

def typeParam (declaration : Declaration) (param : TypeParam) : Declaration :=
  { declaration with typeParams := declaration.typeParams ++ [param] }

def base (declaration : Declaration) (type : TypeRef) : Declaration :=
  { declaration with bases := declaration.bases ++ [type] }

def addMembers (declaration : Declaration) (members : List Member) : Declaration :=
  { declaration with members := declaration.members ++ members }

def readKind? : Json → Option DeclarationKind :=
  Json.named? DeclarationKind.ofKeyword? .text

/-- Whether a declaration is exported is called its visibility in data. -/
def exported? : String → Option Bool
  | "public" => some true
  | "private" => some false
  | _ => none

def toJson (declaration : Declaration) : Json :=
  .object (
    [("kind", .string declaration.kind.keyword), ("name", .string declaration.name)] ++
    Json.unlessEmpty "type_parameters" (declaration.typeParams.map TypeParam.toJson) ++
    Json.unlessEmpty "base_types" (TypeRef.toJsonList declaration.bases) ++
    [("visibility", .string (if declaration.exported then "public" else "private")),
     ("members", .array (declaration.members.map Member.toJson))])

def read? (medium : Json.Medium) (json : Json) : Option Declaration := do
  let fields ← json.record? medium
    ["kind", "name", "type_parameters", "base_types", "visibility", "members"]
  return {
    kind := ← fields.required? "kind" (Json.named? DeclarationKind.ofKeyword? medium)
    name := ← fields.required? "name" Json.string?
    typeParams := ← fields.default? "type_parameters" [] (Json.listOf? (TypeParam.read? medium))
    bases := ← fields.default? "base_types" [] (Json.listOf? (TypeRef.read? medium))
    exported := ← fields.default? "visibility" true (Json.named? exported? medium)
    members := ← fields.default? "members" [] (Json.listOf? (Member.read? medium)) }

def ofJson? : Json → Option Declaration :=
  read? .text

end Declaration

end ApiClient.Tree
