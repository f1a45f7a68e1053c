import ApiClient.Json.Basic

/-! Reading the fields of records.

The fields of an object are found by name, so neither their order nor fields of other names matter.
A repeated field is refused where its name is known and passed over where it is not. An array stands
for a record as well: its items are the fields in their order.
-/

set_option autoImplicit false

namespace ApiClient.Json

abbrev Fields := List (String × Json)

namespace Fields

def find? (fields : Fields) (name : String) : Option Json :=
  fields.lookup name

def occurrences (fields : Fields) (name : String) : Nat :=
  fields.countP (·.1 == name)

/-- The fields, provided that none of the known names is repeated. -/
def known? (fields : Fields) (names : List String) : Option Fields :=
  if names.all fun name => fields.occurrences name ≤ 1 then some fields else none

def required? {α : Type} (fields : Fields) (name : String) (read : Json → Option α) : Option α :=
  fields.find? name >>= read

def default? {α : Type} (fields : Fields) (name : String) (missing : α)
    (read : Json → Option α) : Option α :=
  match fields.find? name with
  | none => some missing
  | some value => read value

def optional? {α : Type} (fields : Fields) (name : String) (read : Json → Option α) :
    Option (Option α) :=
  match fields.find? name with
  | none => some none
  | some .null => some none
  | some value => (read value).map some

end Fields

/-- What data is read from: a text, a buffer that several readers share or that one reader holds,
or a configuration. -/
inductive Medium where
  | text
  | shared
  | held
  | config
  deriving DecidableEq

/-- Whether a value adds nothing to the word that it stands behind. -/
def Medium.isUnit : Medium → Json → Bool
  | .config, .array [] => true
  | .config, .object [] => true
  | .config, _ => false
  | .held, .object [] => true
  | _, .null => true
  | _, _ => false

/-- A word, by itself or as the name of the only field of an object. -/
def word? (json : Json) (medium : Medium) : Option String :=
  match json with
  | .string text => some text
  | .object [(name, value)] => if medium.isUnit value then some name else none
  | _ => none

/-- Reads one of several values that are told apart by a word. -/
def named? {α : Type} (ofName? : String → Option α) (medium : Medium) (json : Json) : Option α :=
  json.word? medium >>= ofName?

/-- The fields of a record, in an object or in an array. Only a configuration may have more items
than there are fields. -/
def record? (json : Json) (medium : Medium) (names : List String) : Option Fields :=
  match json with
  | .object fields => Fields.known? fields names
  | .array items =>
    if medium = .config ∨ items.length ≤ names.length then some (names.zip items) else none
  | _ => none

/-- The variant that a tag names. In a buffer it may be given by its number. -/
def variant? (json : Json) (medium : Medium) (variants : List String) : Option String :=
  match json with
  | .string text => some text
  | .integer (.ofNat index) =>
    if medium = .shared ∨ medium = .held then variants[index]? else none
  | _ => none

/-- The variant of tagged data and the data without its tag, which is a field of an object or the
first item of an array. -/
def tagged? (json : Json) (medium : Medium) (tag : String) (variants : List String) :
    Option (String × Json) :=
  match json with
  | .object fields => do
    let fields ← Fields.known? fields [tag]
    let variant ← fields.required? tag (·.variant? medium variants)
    return (variant, .object (fields.filter (·.1 != tag)))
  | .array (first :: rest) => (first.variant? medium variants).map (·, .array rest)
  | _ => none

def listOf? {α : Type} (read : Json → Option α) (json : Json) : Option (List α) :=
  json.items? >>= (·.mapM read)

/-- A list field as it is written when an empty list may be left out. -/
def unlessEmpty (name : String) (items : List Json) : Fields :=
  if items.isEmpty then [] else [(name, .array items)]

def ifPresent (name : String) : Option Json → Fields
  | none => []
  | some value => [(name, value)]

end ApiClient.Json
