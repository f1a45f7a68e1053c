/-! Reasons why a declaration has no text. -/

set_option autoImplicit false

namespace ApiClient.TypeScript

inductive EmitError where
  | nonConstantInitializer (enumName member : String)
  | invalidEnumMember (enumName member : String)
  | unsupported (node : String)
  | refusedWrite
  deriving DecidableEq

def EmitError.message : EmitError → String
  | .nonConstantInitializer enumName member =>
    "enum member '" ++ enumName ++ "." ++ member ++ "' has a non-constant initializer"
  | .invalidEnumMember enumName member =>
    "enum '" ++ enumName ++ "' contains " ++ member ++ ", but enums may only contain fields"
  | .unsupported node => node ++ " has no TypeScript rendering"
  | .refusedWrite => "failed to write rendered output"

end ApiClient.TypeScript
