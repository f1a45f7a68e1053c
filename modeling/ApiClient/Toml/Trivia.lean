/-! What stands between the parts of a configuration text: blanks, line ends and comments. -/

set_option autoImplicit false

namespace ApiClient.Toml

/-- Reads a value from the front of a text and returns what follows it. -/
abbrev Reader (α : Type) := List Char → Option (α × List Char)

def isSpace (c : Char) : Bool :=
  c == ' ' || c == '\t'

/-- Characters other than control characters, and the tab. -/
def isPrintable (c : Char) : Bool :=
  c == '\t' || (0x20 ≤ c.toNat && c.toNat != 0x7F)

def skipSpace (cs : List Char) : List Char :=
  cs.dropWhile isSpace

def lineFeed? : List Char → Option (List Char)
  | '\n' :: rest => some rest
  | '\r' :: '\n' :: rest => some rest
  | _ => none

def lineEnd? (cs : List Char) : Option (List Char) :=
  let rest := match skipSpace cs with
    | '#' :: comment => comment.dropWhile isPrintable
    | rest => rest
  if rest = [] then some [] else lineFeed? rest

/-- The text after blanks, line ends and comments. A control character in a comment is refused. -/
def skipTrivia (inComment : Bool) : List Char → Option (List Char)
  | [] => some []
  | '\n' :: rest => skipTrivia false rest
  | '\r' :: '\n' :: rest => skipTrivia false rest
  | c :: rest =>
    if inComment then if isPrintable c then skipTrivia true rest else none
    else if isSpace c then skipTrivia false rest
    else if c = '#' then skipTrivia true rest
    else some (c :: rest)

end ApiClient.Toml
