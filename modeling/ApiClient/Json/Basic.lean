import ApiClient.Number.Binary64

/-! Data in JavaScript Object Notation.

An object keeps its fields in the order in which they were written, repeated names included, so
that a reader of the object can tell a repeated field from a single one.
-/

set_option autoImplicit false

namespace ApiClient

inductive Json where
  | null
  | bool (value : Bool)
  | integer (value : Int)
  | double (value : Number.Binary64)
  | string (text : String)
  | array (items : List Json)
  | object (fields : List (String × Json))

namespace Json

instance : Inhabited Json := ⟨.null⟩

mutual

/-- How many arrays and objects lie around the innermost value, itself included. -/
def depth : Json → Nat
  | .array items => depthOfItems items + 1
  | .object fields => depthOfFields fields + 1
  | _ => 0

def depthOfItems : List Json → Nat
  | [] => 0
  | item :: rest => max item.depth (depthOfItems rest)

def depthOfFields : List (String × Json) → Nat
  | [] => 0
  | (_, value) :: rest => max value.depth (depthOfFields rest)

end

def string? : Json → Option String
  | .string text => some text
  | _ => none

def bool? : Json → Option Bool
  | .bool value => some value
  | _ => none

def integer? : Json → Option Int
  | .integer value => some value
  | _ => none

def items? : Json → Option (List Json)
  | .array items => some items
  | _ => none

end Json

end ApiClient
