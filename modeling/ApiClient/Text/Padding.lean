/-! Texts in columns of a fixed width. -/

set_option autoImplicit false

namespace ApiClient.Text

def spaces (count : Nat) : String :=
  String.ofList (List.replicate count ' ')

def padEnd (width : Nat) (text : String) : String :=
  text ++ spaces (width - text.length)

def padStart (width : Nat) (text : String) : String :=
  spaces (width - text.length) ++ text

/-- An odd space goes to the end. -/
def padBoth (width : Nat) (text : String) : String :=
  let missing := width - text.length
  spaces (missing / 2) ++ text ++ spaces (missing - missing / 2)

def cut (width : Nat) (text : String) : String :=
  String.ofList (text.toList.take width)

end ApiClient.Text
