/-! Names that can be written into generated code.

An identifier is not empty, consists of letters, digits, underscores and dollar signs, does not
start with a digit and is not reserved.
-/

set_option autoImplicit false

namespace ApiClient.Manifest

inductive IdentifierProblem where
  | empty
  | leadingDigit
  | invalidCharacter
  | reserved
  deriving DecidableEq

def IdentifierProblem.reason : IdentifierProblem → String
  | .empty => "name cannot be empty"
  | .leadingDigit => "name cannot start with a digit"
  | .invalidCharacter => "name contains an invalid character"
  | .reserved => "name is a reserved word"

namespace Identifier

def reservedWords : List String :=
  ["break", "case", "catch", "class", "const", "continue", "debugger", "default", "delete", "do",
   "else", "enum", "export", "extends", "false", "finally", "for", "function", "if", "import",
   "in", "instanceof", "new", "null", "return", "super", "switch", "this", "throw", "true", "try",
   "typeof", "var", "void", "while", "with"]

/-- Letters and digits are those of the basic Latin alphabet. -/
def isIdentifierChar (c : Char) : Bool :=
  c.isAlphanum || c == '_' || c == '$'

def problem? (name : String) : Option IdentifierProblem :=
  match name.toList with
  | [] => some .empty
  | c :: rest =>
    if c.isDigit then some .leadingDigit
    else if !(c :: rest).all isIdentifierChar then some .invalidCharacter
    else if name ∈ reservedWords then some .reserved
    else none

theorem problem?_eq_none_iff (name : String) :
    problem? name = none ↔
      ∃ c rest, name.toList = c :: rest ∧ c.isDigit = false ∧
        (∀ d ∈ c :: rest, isIdentifierChar d = true) ∧ name ∉ reservedWords := by
  unfold problem?
  split
  · next eq => simp [eq]
  · next c rest eq =>
    simp only [eq, List.cons.injEq]
    constructor
    · intro valid
      by_cases digit : c.isDigit = true
      · simp [digit] at valid
      by_cases letters : (c :: rest).all isIdentifierChar = true
      · by_cases taken : name ∈ reservedWords
        · simp [digit, letters, taken] at valid
        · exact ⟨c, rest, ⟨rfl, rfl⟩, by simpa using digit, List.all_eq_true.1 letters, taken⟩
      · simp [digit, letters] at valid
    · rintro ⟨_, _, ⟨rfl, rfl⟩, notDigit, letters, free⟩
      simp [notDigit, List.all_eq_true.2 letters, free]

end Identifier

end ApiClient.Manifest
