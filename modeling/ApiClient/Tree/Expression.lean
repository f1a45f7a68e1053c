import ApiClient.Number.Notation
import ApiClient.Tree.TypeRef

/-! Expressions of method bodies.

A literal carries its value; a form is an expression that can be named but has no text in the
generated language.
-/

set_option autoImplicit false

namespace ApiClient.Tree

inductive Literal where
  | null
  | bool (value : Bool)
  | int (value : Int)
  | float (value : Number.Binary64)
  | string (text : String)

namespace Literal

/-- The bare text of a value: strings without quotes, numbers in plain notation. -/
def text : Literal → String
  | .null => "null"
  | .bool value => if value then "true" else "false"
  | .int value => Number.wholeText value
  | .float value => value.plainText
  | .string text => text

def toJson : Literal → Json
  | .null => .null
  | .bool value => .bool value
  | .int value => .integer value
  | .float value => .double value
  | .string text => .string text

def ofJson? : Json → Option Literal
  | .null => some .null
  | .bool value => some (.bool value)
  | .integer value => some (.int value)
  | .double value => some (.float value)
  | .string text => some (.string text)
  | _ => none

end Literal

inductive ExpressionForm where
  | arrayCreate
  | arrayIndexer
  | baseReference
  | binaryOperator
  | cast
  | defaultValue
  | delegateCreate
  | delegateInvoke
  | direction
  | eventReference
  | indexer
  | propertySetValueReference
  | typeOf
  deriving DecidableEq

namespace ExpressionForm

def all : List ExpressionForm :=
  [.arrayCreate, .arrayIndexer, .baseReference, .binaryOperator, .cast, .defaultValue,
   .delegateCreate, .delegateInvoke, .direction, .eventReference, .indexer,
   .propertySetValueReference, .typeOf]

def name : ExpressionForm → String
  | .arrayCreate => "array_create"
  | .arrayIndexer => "array_indexer"
  | .baseReference => "base_reference"
  | .binaryOperator => "binary_operator"
  | .cast => "cast"
  | .defaultValue => "default_value"
  | .delegateCreate => "delegate_create"
  | .delegateInvoke => "delegate_invoke"
  | .direction => "direction"
  | .eventReference => "event_reference"
  | .indexer => "indexer"
  | .propertySetValueReference => "property_set_value_reference"
  | .typeOf => "type_of"

def ofName? (text : String) : Option ExpressionForm :=
  all.find? (·.name == text)

def phrase : ExpressionForm → String
  | .arrayCreate => "array creation"
  | .arrayIndexer => "array indexer"
  | .baseReference => "base reference"
  | .binaryOperator => "binary operator"
  | .cast => "cast"
  | .defaultValue => "default value"
  | .delegateCreate => "delegate creation"
  | .delegateInvoke => "delegate invocation"
  | .direction => "direction"
  | .eventReference => "event reference"
  | .indexer => "indexer"
  | .propertySetValueReference => "property set-value reference"
  | .typeOf => "typeof"

end ExpressionForm

inductive Expression where
  | argument (name : String)
  | field (target : Expression) (name : String)
  | call (target : Expression) (method : String) (args : List Expression)
  | methodRef (target : Expression) (method : String) (typeArgs : List TypeRef)
  | create (type : TypeRef) (args : List Expression)
  | parameter (name : String) (type : TypeRef)
  | literal (value : Literal)
  | property (target : Expression) (name : String)
  | snippet (text : String)
  | this
  | typeName (type : TypeRef)
  | variable (name : String)
  | unsupported (form : ExpressionForm)

namespace Expression

instance : Inhabited Expression := ⟨.this⟩

def string (text : String) : Expression :=
  .literal (.string text)

def int (value : Int) : Expression :=
  .literal (.int value)

def literal? : Expression → Option Literal
  | .literal value => some value
  | _ => none

def node (variant : String) (fields : Json.Fields) : Json :=
  .object (("expr", .string variant) :: fields)

mutual

def toJson : Expression → Json
  | .argument name => node "argument_ref" [("name", .string name)]
  | .field target name =>
    node "field_ref" [("target", target.toJson), ("field_name", .string name)]
  | .call target method args =>
    node "method_invoke" [("target", target.toJson), ("method_name", .string method),
      ("args", .array (toJsonList args))]
  | .methodRef target method typeArgs =>
    node "method_ref" [("target", target.toJson), ("method_name", .string method),
      ("type_args", .array (TypeRef.toJsonList typeArgs))]
  | .create type args =>
    node "object_create" [("type", type.toJson), ("args", .array (toJsonList args))]
  | .parameter name type =>
    node "parameter_decl" [("name", .string name), ("type", type.toJson)]
  | .literal value => node "primitive" [("value", value.toJson)]
  | .property target name =>
    node "property_ref" [("target", target.toJson), ("property_name", .string name)]
  | .snippet text => node "snippet" [("text", .string text)]
  | .this => node "this" []
  | .typeName type => node "type_ref" [("type", type.toJson)]
  | .variable name => node "variable_ref" [("name", .string name)]
  | .unsupported form => node "unsupported" [("form", .string form.name)]

def toJsonList : List Expression → List Json
  | [] => []
  | expression :: rest => expression.toJson :: toJsonList rest

end

def variants : List String :=
  ["argument_ref", "field_ref", "method_invoke", "method_ref", "object_create", "parameter_decl",
   "primitive", "property_ref", "snippet", "this", "type_ref", "variable_ref", "unsupported"]

def readVariant (read : Json → Option Expression) (variant : String) (body : Json) :
    Option Expression :=
  match variant with
  | "argument_ref" => do
    let fields ← body.record? .held ["name"]
    return .argument (← fields.required? "name" Json.string?)
  | "field_ref" => do
    let fields ← body.record? .held ["target", "field_name"]
    return .field (← fields.required? "target" read) (← fields.required? "field_name" Json.string?)
  | "method_invoke" => do
    let fields ← body.record? .held ["target", "method_name", "args"]
    return .call (← fields.required? "target" read)
      (← fields.required? "method_name" Json.string?)
      (← fields.default? "args" [] (Json.listOf? read))
  | "method_ref" => do
    let fields ← body.record? .held ["target", "method_name", "type_args"]
    return .methodRef (← fields.required? "target" read)
      (← fields.required? "method_name" Json.string?)
      (← fields.default? "type_args" [] (Json.listOf? (TypeRef.read? .held)))
  | "object_create" => do
    let fields ← body.record? .held ["type", "args"]
    return .create (← fields.required? "type" (TypeRef.read? .held))
      (← fields.default? "args" [] (Json.listOf? read))
  | "parameter_decl" => do
    let fields ← body.record? .held ["name", "type"]
    return .parameter (← fields.required? "name" Json.string?)
      (← fields.required? "type" (TypeRef.read? .held))
  | "primitive" => do
    let fields ← body.record? .held ["value"]
    return .literal (← fields.required? "value" Literal.ofJson?)
  | "property_ref" => do
    let fields ← body.record? .held ["target", "property_name"]
    return .property (← fields.required? "target" read)
      (← fields.required? "property_name" Json.string?)
  | "snippet" => do
    let fields ← body.record? .held ["text"]
    return .snippet (← fields.required? "text" Json.string?)
  | "this" => do
    let _ ← body.record? .held []
    return .this
  | "type_ref" => do
    let fields ← body.record? .held ["type"]
    return .typeName (← fields.required? "type" (TypeRef.read? .held))
  | "variable_ref" => do
    let fields ← body.record? .held ["name"]
    return .variable (← fields.required? "name" Json.string?)
  | "unsupported" => do
    let fields ← body.record? .held ["form"]
    return .unsupported (← fields.required? "form" (Json.named? ExpressionForm.ofName? .held))
  | _ => none

def readNode (medium : Json.Medium) (read : Json → Option Expression) (json : Json) :
    Option Expression := do
  let (variant, body) ← json.tagged? medium "expr" variants
  readVariant read variant body

/-- Reads an expression whose data is nested at most `depth` deep; its tag holds what is inside. -/
def readWithin : Nat → Json.Medium → Json → Option Expression
  | 0, _, _ => none
  | depth + 1, medium, json => readNode medium (readWithin depth .held) json

def read? (medium : Json.Medium) (json : Json) : Option Expression :=
  readWithin json.depth medium json

def ofJson? : Json → Option Expression :=
  read? .text

end Expression

end ApiClient.Tree
