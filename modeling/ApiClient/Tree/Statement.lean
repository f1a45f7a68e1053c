import ApiClient.Tree.Expression

/-! Statements of method bodies, and the blocks they hold. -/

set_option autoImplicit false

namespace ApiClient.Tree

inductive StatementForm where
  | attachEvent
  | removeEvent
  | goto
  | labeled
  deriving DecidableEq

namespace StatementForm

def all : List StatementForm :=
  [.attachEvent, .removeEvent, .goto, .labeled]

def name : StatementForm → String
  | .attachEvent => "attach_event"
  | .removeEvent => "remove_event"
  | .goto => "goto"
  | .labeled => "labeled"

def ofName? (text : String) : Option StatementForm :=
  all.find? (·.name == text)

def phrase : StatementForm → String
  | .attachEvent => "attach event"
  | .removeEvent => "remove event"
  | .goto => "goto"
  | .labeled => "labeled statement"

end StatementForm

/-- A clause that catches an exception in a local variable. -/
structure CatchClause (σ : Type) where
  localName : String
  body : List σ

/-- An alternative branch that is there but empty differs from one that is not there. -/
inductive Statement where
  | assign (left right : Expression)
  | comment (text : String)
  | branch (test : Expression) (thenBody : List Statement) (elseBody : Option (List Statement))
  | expression (value : Expression)
  | loop (init : Statement) (test : Expression) (step : Statement) (body : List Statement)
  | returning (value : Option Expression)
  | throw (value : Expression)
  | guarded (body : List Statement) (catches : List (CatchClause Statement))
      (finallyBody : List Statement)
  | declare (type : TypeRef) (name : String) (init : Option Expression)
  | snippet (text : String)
  | unsupported (form : StatementForm)

namespace Statement

instance : Inhabited Statement := ⟨.returning none⟩

def node (variant : String) (fields : Json.Fields) : Json :=
  .object (("stmt", .string variant) :: fields)

mutual

def toJson : Statement → Json
  | .assign left right => node "assign" [("left", left.toJson), ("right", right.toJson)]
  | .comment text => node "comment" [("text", .string text)]
  | .branch test thenBody elseBody =>
    node "condition" ([("test", test.toJson), ("then_body", .array (toJsonList thenBody))] ++
      Json.ifPresent "else_body" (toJsonBlock elseBody))
  | .expression value => node "expression" [("expr", value.toJson)]
  | .loop init test step body =>
    node "for" [("init", init.toJson), ("test", test.toJson), ("increment", step.toJson),
      ("body", .array (toJsonList body))]
  | .returning value => node "return" (Json.ifPresent "expr" (value.map Expression.toJson))
  | .throw value => node "throw" [("expr", value.toJson)]
  | .guarded body catches finallyBody =>
    node "try_catch_finally" [("try_body", .array (toJsonList body)),
      ("catches", .array (toJsonCatches catches)),
      ("finally_body", .array (toJsonList finallyBody))]
  | .declare type name init =>
    node "variable_declaration" ([("type", type.toJson), ("name", .string name)] ++
      Json.ifPresent "init" (init.map Expression.toJson))
  | .snippet text => node "snippet" [("text", .string text)]
  | .unsupported form => node "unsupported" [("form", .string form.name)]

def toJsonList : List Statement → List Json
  | [] => []
  | statement :: rest => statement.toJson :: toJsonList rest

def toJsonBlock : Option (List Statement) → Option Json
  | none => none
  | some body => some (.array (toJsonList body))

def toJsonCatch : CatchClause Statement → Json
  | ⟨localName, body⟩ =>
    .object [("local_name", .string localName), ("body", .array (toJsonList body))]

def toJsonCatches : List (CatchClause Statement) → List Json
  | [] => []
  | clause :: rest => toJsonCatch clause :: toJsonCatches rest

end

def variants : List String :=
  ["assign", "comment", "condition", "expression", "for", "return", "throw", "try_catch_finally",
   "variable_declaration", "snippet", "unsupported"]

def readCatch (medium : Json.Medium) (read : Json → Option Statement) (json : Json) :
    Option (CatchClause Statement) := do
  let fields ← json.record? medium ["local_name", "body"]
  return ⟨← fields.required? "local_name" Json.string?,
    ← fields.default? "body" [] (Json.listOf? read)⟩

def readVariant (read : Json → Option Statement) (variant : String) (body : Json) :
    Option Statement :=
  match variant with
  | "assign" => do
    let fields ← body.record? .held ["left", "right"]
    return .assign (← fields.required? "left" (Expression.read? .held))
      (← fields.required? "right" (Expression.read? .held))
  | "comment" => do
    let fields ← body.record? .held ["text"]
    return .comment (← fields.required? "text" Json.string?)
  | "condition" => do
    let fields ← body.record? .held ["test", "then_body", "else_body"]
    return .branch (← fields.required? "test" (Expression.read? .held))
      (← fields.default? "then_body" [] (Json.listOf? read))
      (← fields.optional? "else_body" (Json.listOf? read))
  | "expression" => do
    let fields ← body.record? .held ["expr"]
    return .expression (← fields.required? "expr" (Expression.read? .held))
  | "for" => do
    let fields ← body.record? .held ["init", "test", "increment", "body"]
    return .loop (← fields.required? "init" read)
      (← fields.required? "test" (Expression.read? .held))
      (← fields.required? "increment" read) (← fields.default? "body" [] (Json.listOf? read))
  | "return" => do
    let fields ← body.record? .held ["expr"]
    return .returning (← fields.optional? "expr" (Expression.read? .held))
  | "throw" => do
    let fields ← body.record? .held ["expr"]
    return .throw (← fields.required? "expr" (Expression.read? .held))
  | "try_catch_finally" => do
    let fields ← body.record? .held ["try_body", "catches", "finally_body"]
    return .guarded (← fields.default? "try_body" [] (Json.listOf? read))
      (← fields.default? "catches" [] (Json.listOf? (readCatch .held read)))
      (← fields.default? "finally_body" [] (Json.listOf? read))
  | "variable_declaration" => do
    let fields ← body.record? .held ["type", "name", "init"]
    return .declare (← fields.required? "type" (TypeRef.read? .held))
      (← fields.required? "name" Json.string?) (← fields.optional? "init" (Expression.read? .held))
  | "snippet" => do
    let fields ← body.record? .held ["text"]
    return .snippet (← fields.required? "text" Json.string?)
  | "unsupported" => do
    let fields ← body.record? .held ["form"]
    return .unsupported (← fields.required? "form" (Json.named? StatementForm.ofName? .held))
  | _ => none

def readNode (medium : Json.Medium) (read : Json → Option Statement) (json : Json) :
    Option Statement := do
  let (variant, body) ← json.tagged? medium "stmt" variants
  readVariant read variant body

/-- Reads a statement whose data is nested at most `depth` deep; its tag holds what is inside. -/
def readWithin : Nat → Json.Medium → Json → Option Statement
  | 0, _, _ => none
  | depth + 1, medium, json => readNode medium (readWithin depth .held) json

def read? (medium : Json.Medium) (json : Json) : Option Statement :=
  readWithin json.depth medium json

def ofJson? : Json → Option Statement :=
  read? .text

end Statement

namespace CatchClause

def toJson (clause : CatchClause Statement) : Json :=
  Statement.toJsonCatch clause

def read? (medium : Json.Medium) : Json → Option (CatchClause Statement) :=
  Statement.readCatch medium (Statement.read? medium)

def ofJson? : Json → Option (CatchClause Statement) :=
  read? .text

end CatchClause

end ApiClient.Tree
