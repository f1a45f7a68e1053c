import ApiClient.Text.Search

/-! The text of a description, and places in it.

A place is given by an offset and a length in UTF-8 bytes. A value is looked for between double
quotes, and its place is that of the value without the quotes.
-/

set_option autoImplicit false

namespace ApiClient.Manifest

structure Span where
  offset : Nat
  length : Nat
  deriving DecidableEq

structure Source where
  text : String
  name : String

namespace Source

def quoted (value : String) : List Char :=
  '"' :: value.toList ++ ['"']

/-- The first place of a quoted value at or after a byte offset, which has to be the start of a
character or the end of the text. -/
def findFrom? (source : Source) (value : String) (offset : Nat) : Option Span := do
  let rest ← Text.dropBytes? offset source.text.toList
  let (before, _) ← Text.cutAt? (quoted value) rest
  return ⟨offset + Text.byteSize before + 1, Text.byteSize value.toList⟩

def find? (source : Source) (value : String) : Option Span :=
  source.findFrom? value 0

/-- The first two places of a quoted value. The second may share a quote with the first. -/
def findTwice (source : Source) (value : String) : Option Span × Option Span :=
  match source.find? value with
  | none => (none, none)
  | some first => (some first, source.findFrom? value (first.offset + first.length))

end Source

end ApiClient.Manifest
