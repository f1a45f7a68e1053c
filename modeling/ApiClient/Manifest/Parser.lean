import ApiClient.Manifest.Validate
import ApiClient.Toml.Parser

/-! Reading a description from its text. -/

set_option autoImplicit false

namespace ApiClient.Manifest

def defaultFile : String := "tsdom.toml"

def parse (text : String) (file : String) : Except ManifestError ApiDescription :=
  let source : Source := ⟨text, file⟩
  match Toml.parse? text >>= fun value => ApiDescription.read? .config value.toJson with
  | none => .error source.malformed
  | some manifest => do
    validate source manifest
    return manifest

end ApiClient.Manifest
