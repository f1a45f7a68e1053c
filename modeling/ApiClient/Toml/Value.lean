import ApiClient.Json.Basic

/-! Values of a configuration text.

A table remembers how it came about, since that decides whether a later line may add to it. An
array that was written as a sequence of table headers is told apart from an array in brackets
for the same reason. Floats and dates keep their spelling.
-/

set_option autoImplicit false

namespace ApiClient.Toml

inductive Origin where
  /-- Opened by its own header. -/
  | header
  /-- Named on the way to another header. -/
  | implied
  /-- Named on the way to the last part of a dotted key. -/
  | dotted
  /-- Written between braces. -/
  | inline
  deriving DecidableEq

structure Table (ν : Type) where
  origin : Origin
  entries : List (String × ν)

inductive Value where
  | string (text : String)
  | integer (value : Int)
  | float (spelling : String)
  | boolean (value : Bool)
  | dateTime (spelling : String)
  | array (ofTables : Bool) (items : List Value)
  | table (table : Table Value)

namespace Table

def empty {ν : Type} (origin : Origin) : Table ν :=
  ⟨origin, []⟩

def find? {ν : Type} (table : Table ν) (key : String) : Option ν :=
  table.entries.lookup key

def set {ν : Type} (table : Table ν) (key : String) (value : ν) : Table ν :=
  { table with entries := table.entries.filter (·.1 != key) ++ [(key, value)] }

def add? {ν : Type} (table : Table ν) (key : String) (value : ν) : Option (Table ν) :=
  match table.find? key with
  | none => some { table with entries := table.entries ++ [(key, value)] }
  | some _ => none

end Table

namespace Value

instance : Inhabited Value := ⟨.boolean false⟩

mutual

/-- A value as plain data. A date becomes an object whose field no record has. -/
def toJson : Value → Json
  | .string text => .string text
  | .integer value => .integer value
  | .float _ => .double .notANumber
  | .boolean value => .bool value
  | .dateTime spelling => .object [("$__toml_private_datetime", .string spelling)]
  | .array _ items => .array (toJsonItems items)
  | .table ⟨_, entries⟩ => .object (toJsonEntries entries)

def toJsonItems : List Value → List Json
  | [] => []
  | item :: rest => item.toJson :: toJsonItems rest

def toJsonEntries : List (String × Value) → List (String × Json)
  | [] => []
  | (key, value) :: rest => (key, value.toJson) :: toJsonEntries rest

end

end Value

end ApiClient.Toml
