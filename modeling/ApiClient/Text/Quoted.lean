/-! Texts between quotation marks.

`escapeWith` replaces single characters and copies the others, so an escaped text is read back
character by character.
-/

set_option autoImplicit false

namespace ApiClient.Text

def escapeWith (escape : Char → List Char) (text : String) : String :=
  String.ofList (text.toList.flatMap escape)

/-- Between double quotes, a backslash stands before backslashes and double quotes, and line ends
are written as letters. -/
def doubleQuotedChar : Char → List Char
  | '\\' => ['\\', '\\']
  | '"' => ['\\', '"']
  | '\n' => ['\\', 'n']
  | '\r' => ['\\', 'r']
  | c => [c]

def doubleQuoted (text : String) : String :=
  "\"" ++ escapeWith doubleQuotedChar text ++ "\""

/-- Between single quotes, a backslash stands before backslashes and single quotes. -/
def singleQuotedChar : Char → List Char
  | '\\' => ['\\', '\\']
  | '\'' => ['\\', '\'']
  | c => [c]

def escapeSingleQuoted (text : String) : String :=
  escapeWith singleQuotedChar text

end ApiClient.Text
