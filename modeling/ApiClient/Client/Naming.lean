import ApiClient.Text.LowerCase

/-! Names of client methods. -/

set_option autoImplicit false

namespace ApiClient.Client

def camelCase (name : String) : String :=
  match name.toList with
  | [] => ""
  | c :: rest => String.ofList (Text.lowerCase c ++ rest)

def asyncSuffix : List Char := ['A', 's', 'y', 'n', 'c']

/-- A name without the suffix of asynchronous operations, unless nothing else is left. -/
def dropAsync (name : String) : String :=
  let cs := name.toList
  let stem := cs.take (cs.length - asyncSuffix.length)
  if stem ≠ [] ∧ cs = stem ++ asyncSuffix then String.ofList stem else name

def methodName (camel : Bool) (operation : String) : String :=
  dropAsync (if camel then camelCase operation else operation)

end ApiClient.Client
