import ApiClient.Proofs.Tree.RoundTrip

/-! The form of stored nodes, and what may be written differently in it.

The data of a node has a slot for each field that the node reads. A slot says what stands in the
field and what stands for it where it is left out; in data with variants the first slot is the tag,
which decides about the others. An object fills the slots by name, an array in their order. Data is
restated by a change in one object, at any depth, that leaves alone what the slots hold.
-/

set_option autoImplicit false

namespace ApiClient.Tree

open ApiClient.Json

/-- What stands at a place of stored data. A word is one of a few texts, and may be written as an
object; what is none of the others is plain. -/
inductive Place where
  | plain
  | word
  | node (kind : NodeKind)
  | list (items : Place)

/-- A field as it is read. An optional one may be left out or null, a list may be left out where it
is empty, a flag where it is false, and a choice where it is the usual word. -/
inductive Slot where
  | required (name : String) (place : Place)
  | optional (name : String) (place : Place)
  | list (name : String) (items : Place)
  | flag (name : String)
  | choice (name usual : String)

namespace Slot

def plain (name : String) : Slot := .required name .plain

def word (name : String) : Slot := .required name .word

def node (name : String) (kind : NodeKind) : Slot := .required name (.node kind)

def name : Slot → String
  | .required name _ => name
  | .optional name _ => name
  | .list name _ => name
  | .flag name => name
  | .choice name _ => name

def place : Slot → Place
  | .required _ place => place
  | .optional _ place => place
  | .list _ items => .list items
  | .flag _ => .plain
  | .choice _ _ => .word

/-- What the field stands for where it is left out. -/
def missing : Slot → Option Json
  | .required _ _ => none
  | .optional _ _ => some .null
  | .list _ _ => some (.array [])
  | .flag _ => some (.bool false)
  | .choice _ usual => some (.string usual)

end Slot

def methodSlots : List Slot :=
  [.plain "name", .flag "is_constructor",
   .list "parameters" (.node .parameter), .optional "return_type" (.node .type),
   .list "body" (.node .statement), .list "doc" .plain]

def memberSlots : String → List Slot
  | "field" => [.plain "name", .node "type" .type, .optional "init" (.node .expression)]
  | "property" => [.plain "name", .node "type" .type]
  | "method" => methodSlots
  | "snippet" => [.plain "text"]
  | _ => []

def expressionSlots : String → List Slot
  | "argument_ref" => [.plain "name"]
  | "field_ref" => [.node "target" .expression, .plain "field_name"]
  | "method_invoke" =>
    [.node "target" .expression, .plain "method_name", .list "args" (.node .expression)]
  | "method_ref" =>
    [.node "target" .expression, .plain "method_name", .list "type_args" (.node .type)]
  | "object_create" => [.node "type" .type, .list "args" (.node .expression)]
  | "parameter_decl" => [.plain "name", .node "type" .type]
  | "primitive" => [.node "value" .literal]
  | "property_ref" => [.node "target" .expression, .plain "property_name"]
  | "snippet" => [.plain "text"]
  | "this" => []
  | "type_ref" => [.node "type" .type]
  | "variable_ref" => [.plain "name"]
  | "unsupported" => [.word "form"]
  | _ => []

def statementSlots : String → List Slot
  | "assign" => [.node "left" .expression, .node "right" .expression]
  | "comment" => [.plain "text"]
  | "condition" =>
    [.node "test" .expression, .list "then_body" (.node .statement),
     .optional "else_body" (.list (.node .statement))]
  | "expression" => [.node "expr" .expression]
  | "for" =>
    [.node "init" .statement, .node "test" .expression, .node "increment" .statement,
     .list "body" (.node .statement)]
  | "return" => [.optional "expr" (.node .expression)]
  | "throw" => [.node "expr" .expression]
  | "try_catch_finally" =>
    [.list "try_body" (.node .statement), .list "catches" (.node .catchClause),
     .list "finally_body" (.node .statement)]
  | "variable_declaration" =>
    [.node "type" .type, .plain "name", .optional "init" (.node .expression)]
  | "snippet" => [.plain "text"]
  | "unsupported" => [.word "form"]
  | _ => []

namespace NodeKind

def tag? : NodeKind → Option String
  | .member => some "member"
  | .statement => some "stmt"
  | .expression => some "expr"
  | _ => none

def variants : NodeKind → List String
  | .member => Member.variants
  | .statement => Statement.variants
  | .expression => Expression.variants
  | _ => []

def parts : NodeKind → String → List Slot
  | .declaration, _ =>
    [.word "kind", .plain "name", .list "type_parameters" (.node .typeParam),
     .list "base_types" (.node .type), .choice "visibility" "public",
     .list "members" (.node .member)]
  | .member, variant => memberSlots variant
  | .method, _ => methodSlots
  | .parameter, _ => [.plain "name", .node "type" .type]
  | .statement, variant => statementSlots variant
  | .catchClause, _ => [.plain "local_name", .list "body" (.node .statement)]
  | .expression, variant => expressionSlots variant
  | .literal, _ => []
  | .type, _ => [.plain "name", .flag "nullable", .list "args" (.node .type)]
  | .typeParam, _ => [.plain "name", .list "constraints" (.node .type)]

/-- The variant that a tag names, by its number or not, or no variant. -/
def variantOf (kind : NodeKind) (tag : Option Json) : String :=
  (tag >>= (·.variant? .held kind.variants)).getD ""

def slotsOf (kind : NodeKind) (tag : Option Json) : List Slot :=
  (kind.tag?.map Slot.plain).toList ++ kind.parts (kind.variantOf tag)

theorem slotsOf_of_tag {kind : NodeKind} {name : String} (named : kind.tag? = some name)
    (tag : Option Json) : kind.slotsOf tag = .plain name :: kind.parts (kind.variantOf tag) := by
  rw [slotsOf, named]
  rfl

theorem slotsOf_of_no_tag {kind : NodeKind} (untagged : kind.tag? = none) (tag : Option Json) :
    kind.slotsOf tag = kind.parts "" := by
  cases kind <;> first | rfl | contradiction

theorem parts_nodup (kind : NodeKind) (variant : String) :
    ((kind.tag?.map Slot.plain).toList ++ kind.parts variant |>.map Slot.name).Nodup := by
  cases kind with
  | member =>
    simp only [parts, memberSlots]
    split <;> decide
  | statement =>
    simp only [parts, statementSlots]
    split <;> decide
  | expression =>
    simp only [parts, expressionSlots]
    split <;> decide
  | declaration => exact (by decide : (parts .declaration "" |>.map Slot.name).Nodup)
  | method => exact (by decide : (methodSlots.map Slot.name).Nodup)
  | parameter => exact (by decide : (parts .parameter "" |>.map Slot.name).Nodup)
  | catchClause => exact (by decide : (parts .catchClause "" |>.map Slot.name).Nodup)
  | literal => exact List.nodup_nil
  | type => exact (by decide : (parts .type "" |>.map Slot.name).Nodup)
  | typeParam => exact (by decide : (parts .typeParam "" |>.map Slot.name).Nodup)

theorem slotsOf_nodup (kind : NodeKind) (tag : Option Json) :
    ((kind.slotsOf tag).map Slot.name).Nodup :=
  kind.parts_nodup _

end NodeKind

namespace Place

/-- The slots of an object at some place; where no node is expected, it has none. -/
def slots : Place → Fields → List Slot
  | .node kind, fields => kind.slotsOf (kind.tag? >>= fields.find?)
  | _, _ => []

/-- The place of a field in an object; a field without a slot is passed over as it is. -/
def field (place : Place) (fields : Fields) (name : String) : Place :=
  match place, (place.slots fields).find? (·.name == name) with
  | .word, _ => .word
  | _, some slot => slot.place
  | _, none => .plain

/-- The place of an item in an array; the items of a node fill its slots in their order. -/
def item (place : Place) (items : List Json) (index : Nat) : Place :=
  match place with
  | .plain => .plain
  | .word => .word
  | .node kind => ((kind.slotsOf items.head?)[index]?.map Slot.place).getD .plain
  | .list place => place

end Place

/-- Data that says the same in another way, after one change. Fields are put into another order,
fields without a slot are added where no word is expected, and what stands for a field that is
missing is left out or written down, in the object itself or in one that is inside of it. -/
inductive Restates : Place → Json → Json → Prop where
  | reorder {place : Place} {fields others : Fields} :
    fields.Perm others → Restates place (.object fields) (.object others)
  | add {place : Place} {front back : Fields} {name : String} (value : Json) :
    place ≠ .word → name ∉ (place.slots (front ++ back)).map Slot.name →
    Restates place (.object (front ++ back)) (.object (front ++ (name, value) :: back))
  | write {place : Place} {front back : Fields} {slot : Slot} {value : Json} :
    slot ∈ place.slots (front ++ back) → slot.missing = some value →
    slot.name ∉ (front ++ back).map Prod.fst →
    Restates place (.object (front ++ back)) (.object (front ++ (slot.name, value) :: back))
  | leaveOut {place : Place} {front back : Fields} {slot : Slot} {value : Json} :
    slot ∈ place.slots (front ++ (slot.name, value) :: back) → slot.missing = some value →
    slot.name ∉ (front ++ back).map Prod.fst →
    Restates place (.object (front ++ (slot.name, value) :: back)) (.object (front ++ back))
  | inField {place : Place} {front back : Fields} {name : String} {value other : Json} :
    Restates (place.field (front ++ (name, value) :: back) name) value other →
    Restates place (.object (front ++ (name, value) :: back))
      (.object (front ++ (name, other) :: back))
  | inItem {place : Place} {front back : List Json} {value other : Json} :
    Restates (place.item (front ++ value :: back) front.length) value other →
    Restates place (.array (front ++ value :: back)) (.array (front ++ other :: back))

end ApiClient.Tree
