import ApiClient.Toml.Value

/-! Building tables from keys and headers.

A dotted key creates the tables on its way and may reach them again, but no table that a header
opened or that stands between braces. A header may pass through such tables, and through the last
item of a sequence of headers. No key is given twice.
-/

set_option autoImplicit false

namespace ApiClient.Toml

namespace Table

def admits (dotted : Bool) (origin : Origin) : Bool :=
  match origin with
  | .inline => false
  | .header => !dotted
  | .implied => true
  | .dotted => true

/-- Replaces the table that a value holds, the last one of a sequence of headers. -/
def within (dotted : Bool) (change : Table Value → Option (Table Value)) :
    Value → Option Value
  | .table table => if admits dotted table.origin then (change table).map .table else none
  | .array true items =>
    match items.getLast? with
    | some (.table table) => do return .array true (items.dropLast ++ [.table (← change table)])
    | _ => none
  | _ => none

/-- Replaces the table at the end of a path, creating the tables that are missing. -/
def update (dotted : Bool) (change : Table Value → Option (Table Value)) :
    List String → Table Value → Option (Table Value)
  | [], table => change table
  | key :: path, table => do
    let missing := Value.table (empty (if dotted then .dotted else .implied))
    let value ← within dotted (update dotted change path) ((table.find? key).getD missing)
    return table.set key value

def assign (table : Table Value) (path : List String) (key : String) (value : Value) :
    Option (Table Value) :=
  let dotted := !path.isEmpty
  update dotted
    (fun parent => if (parent.origin == .dotted) == dotted then parent.add? key value else none)
    path table

/-- A key as the tables on its way and its last part, with its value. -/
structure Entry where
  path : List String
  key : String
  value : Value

def assignAll (table : Table Value) (entries : List Entry) : Option (Table Value) :=
  entries.foldlM (fun table entry => table.assign entry.path entry.key entry.value) table

/-- What a header opens: a table, or the next item of a sequence. -/
structure Header where
  path : List String
  key : String
  ofSequence : Bool

/-- The table that a header opens, filled by the entries below it. Only a table that was implied
before may be opened again. -/
def openTable (parent : Table Value) (key : String) (entries : List Entry) :
    Option (Table Value) := do
  let opened ← match parent.find? key with
    | none => some (empty .header)
    | some (.table ⟨.implied, found⟩) => some ⟨.header, found⟩
    | some _ => none
  return parent.set key (.table (← opened.assignAll entries))

def openItem (parent : Table Value) (key : String) (entries : List Entry) :
    Option (Table Value) := do
  let item := Value.table (← (empty .header).assignAll entries)
  match parent.find? key with
  | none => return parent.set key (.array true [item])
  | some (.array true items) => return parent.set key (.array true (items ++ [item]))
  | some _ => none

def addSection (root : Table Value) (header : Header) (entries : List Entry) :
    Option (Table Value) :=
  update false
    (fun parent =>
      if header.ofSequence then parent.openItem header.key entries
      else parent.openTable header.key entries)
    header.path root

end Table

end ApiClient.Toml
