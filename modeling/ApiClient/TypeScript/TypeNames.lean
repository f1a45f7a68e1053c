import ApiClient.TypeScript.TypeMapper

/-! Types of a server in the generated language.

Names of simple types map to the built-in types; an unknown name stands for itself. A generic
type is recognised by the last segment of its dotted name and by the number of its arguments.
-/

set_option autoImplicit false

namespace ApiClient.TypeScript

open ApiClient.Tree

def stringNames : List String :=
  ["string", "String", "System.String", "char", "Char", "System.Char", "Guid", "System.Guid",
   "Uri", "System.Uri", "TimeSpan", "System.TimeSpan"]

def numberNames : List String :=
  ["int", "long", "short", "byte", "sbyte", "uint", "ulong", "ushort", "float", "double",
   "decimal", "Int32", "Int64", "Int16", "Byte", "SByte", "UInt32", "UInt64", "UInt16", "Single",
   "Double", "Decimal", "System.Int32", "System.Int64", "System.Int16", "System.Byte",
   "System.SByte", "System.UInt32", "System.UInt64", "System.UInt16", "System.Single",
   "System.Double", "System.Decimal"]

def booleanNames : List String :=
  ["bool", "Boolean", "System.Boolean"]

def dateNames : List String :=
  ["DateTime", "DateTimeOffset", "System.DateTime", "System.DateTimeOffset"]

def anyNames : List String :=
  ["object", "Object", "System.Object"]

def voidNames : List String :=
  ["void", "Void", "System.Void"]

def taskNames : List String :=
  ["Task", "ValueTask"]

def collectionNames : List String :=
  ["Array", "List", "IList", "IEnumerable", "ICollection", "IReadOnlyList",
   "IReadOnlyCollection", "HashSet", "ISet"]

def dictionaryNames : List String :=
  ["Dictionary", "IDictionary", "IReadOnlyDictionary"]

/-- The text of a type without arguments; a task without a result promises nothing. -/
def simpleName (name : String) : String :=
  if name ∈ stringNames then "string"
  else if name ∈ numberNames then "number"
  else if name ∈ booleanNames then "boolean"
  else if name ∈ dateNames then "Date"
  else if name ∈ anyNames then "any"
  else if name ∈ voidNames then "void"
  else if name ∈ taskNames then "Promise<void>"
  else name

def lastSegment (name : String) : String :=
  String.ofList ((Text.split '.' name.toList).getLast?.getD [])

/-- The text of a generic type whose arguments have been spelled. -/
def genericName (name : String) (args : List String) : String :=
  let base := lastSegment name
  match args with
  | [] => simpleName name
  | [arg] =>
    if base = "Nullable" then markNullable arg
    else if base ∈ collectionNames then "Array<" ++ arg ++ ">"
    else if base ∈ taskNames then "Promise<" ++ arg ++ ">"
    else angled (simpleName name) args
  | [key, value] =>
    if base ∈ dictionaryNames then "\x7b[id: " ++ key ++ "]: " ++ value ++ "\x7d"
    else angled (simpleName name) args
  | _ => angled (simpleName name) args

def spelling : Spelling :=
  { name := simpleName, generic := genericName }

def builtInTypes : List String :=
  ["string", "number", "boolean", "any", "void", "Date"]

def isDerivable (type : TypeRef) : Bool :=
  if type.nullable then false
  else
    let (base, nullable) := splitNullable (spelling.type type)
    !nullable && !builtInTypes.contains base

def typeMapper : TypeMapper :=
  { spelling with derivable := isDerivable }

end ApiClient.TypeScript
