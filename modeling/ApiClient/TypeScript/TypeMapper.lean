import ApiClient.Text.Lines
import ApiClient.Tree.TypeRef

/-! Spelling of types.

A spelling turns the name of a type into text, with the texts of the arguments of a generic type.
A nullable type is marked by a question mark at the end of its text. A type mapper is a spelling
together with the choice of types that a class may extend; it may also write whole types in a way
of its own.
-/

set_option autoImplicit false

namespace ApiClient.TypeScript

open ApiClient.Tree

def nullableMark : Char := '?'

/-- The marked text, which has the mark once however often it is marked. -/
def markNullable (text : String) : String :=
  if text.toList.getLast? = some nullableMark then text else text.push nullableMark

/-- A text without the marks at its end, and whether there were any. -/
def splitNullable (text : String) : String × Bool :=
  let base := String.ofList (Text.trimEnd (· == nullableMark) text.toList)
  (base, base != text)

def angled (name : String) (args : List String) : String :=
  name ++ "<" ++ ", ".intercalate args ++ ">"

structure Spelling where
  name : String → String
  generic : String → List String → String := fun type args =>
    if args.isEmpty then name type else angled (name type) args
  nullable : String → String := markNullable

namespace Spelling

mutual

/-- The text of a type: the arguments first, the mark last. -/
def type (spelling : Spelling) : TypeRef → String
  | ⟨name, nullable, args⟩ =>
    let text :=
      if args.isEmpty then spelling.name name else spelling.generic name (types spelling args)
    if nullable then spelling.nullable text else text

def types (spelling : Spelling) : List TypeRef → List String
  | [] => []
  | type :: rest => spelling.type type :: types spelling rest

end

theorem types_eq_map (spelling : Spelling) (types : List TypeRef) :
    spelling.types types = types.map spelling.type := by
  induction types with
  | nil => simp [Spelling.types]
  | cons type rest ih => simp [Spelling.types, ih]

end Spelling

structure TypeMapper extends Spelling where
  derivable : TypeRef → Bool
  type : TypeRef → String := toSpelling.type

end ApiClient.TypeScript
