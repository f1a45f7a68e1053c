import ApiClient.Text.Lines

/-! White space at the end of a text, as the property White_Space of the character standard
has it. -/

set_option autoImplicit false

namespace ApiClient.Text

def isBlank (c : Char) : Bool :=
  (0x9 ≤ c.toNat && c.toNat ≤ 0xD) || c.toNat == 0x20 || c.toNat == 0x85 || c.toNat == 0xA0 ||
  c.toNat == 0x1680 || (0x2000 ≤ c.toNat && c.toNat ≤ 0x200A) || c.toNat == 0x2028 ||
  c.toNat == 0x2029 || c.toNat == 0x202F || c.toNat == 0x205F || c.toNat == 0x3000

def trimBlankEnd (text : String) : String :=
  String.ofList (trimEnd isBlank text.toList)

end ApiClient.Text
