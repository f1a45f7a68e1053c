import ApiClient.Json.Fields

/-! References to types, and type parameters with their bounds. -/

set_option autoImplicit false

namespace ApiClient.Tree

structure TypeRef where
  name : String
  nullable : Bool := false
  args : List TypeRef := []

namespace TypeRef

instance : Inhabited TypeRef := ⟨{ name := "" }⟩

def generic (name : String) (args : List TypeRef) : TypeRef :=
  { name, args }

def orNull (type : TypeRef) : TypeRef :=
  { type with nullable := true }

def string : TypeRef := { name := "string" }
def int : TypeRef := { name := "int" }
def bool : TypeRef := { name := "bool" }
def void : TypeRef := { name := "void" }

def isGeneric (type : TypeRef) : Bool :=
  !type.args.isEmpty

mutual

/-- The arguments are written only where there are any. -/
def toJson : TypeRef → Json
  | ⟨name, nullable, args⟩ =>
    .object ([("name", .string name), ("nullable", .bool nullable)] ++
      Json.unlessEmpty "args" (toJsonList args))

def toJsonList : List TypeRef → List Json
  | [] => []
  | type :: rest => type.toJson :: toJsonList rest

end

def readNode (medium : Json.Medium) (read : Json → Option TypeRef) (json : Json) :
    Option TypeRef := do
  let fields ← json.record? medium ["name", "nullable", "args"]
  return {
    name := ← fields.required? "name" Json.string?
    nullable := ← fields.default? "nullable" false Json.bool?
    args := ← fields.default? "args" [] (Json.listOf? read) }

def readWithin : Nat → Json.Medium → Json → Option TypeRef
  | 0, _, _ => none
  | depth + 1, medium, json => readNode medium (readWithin depth medium) json

def read? (medium : Json.Medium) (json : Json) : Option TypeRef :=
  readWithin json.depth medium json

def ofJson? : Json → Option TypeRef :=
  read? .text

end TypeRef

structure TypeParam where
  name : String
  bounds : List TypeRef := []

namespace TypeParam

def bound (param : TypeParam) (type : TypeRef) : TypeParam :=
  { param with bounds := param.bounds ++ [type] }

def toJson (param : TypeParam) : Json :=
  .object ([("name", .string param.name)] ++
    Json.unlessEmpty "constraints" (TypeRef.toJsonList param.bounds))

def read? (medium : Json.Medium) (json : Json) : Option TypeParam := do
  let fields ← json.record? medium ["name", "constraints"]
  return {
    name := ← fields.required? "name" Json.string?
    bounds := ← fields.default? "constraints" [] (Json.listOf? (TypeRef.read? medium)) }

def ofJson? : Json → Option TypeParam :=
  read? .text

end TypeParam

end ApiClient.Tree
