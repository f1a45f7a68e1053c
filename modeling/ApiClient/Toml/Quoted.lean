import ApiClient.Json.Quoted
import ApiClient.Toml.Trivia

/-! Strings of a configuration text.

A basic string stands between double quotes and has escapes, a literal string stands between
single quotes and has none. Three quotes delimit a string of several lines: a line end right
after the opening quotes does not belong to it, and up to two quotes in front of the closing ones
do. A backslash at the end of a line of a basic string removes the blanks up to the next text.
-/

set_option autoImplicit false

namespace ApiClient.Toml.Quoted

def hexValue (value : Nat) : List Char → Option Nat
  | [] => some value
  | d :: ds => do hexValue (value * 16 + (← Json.Quoted.hexValue? d)) ds

/-- The character of a code, unless the code is that of a surrogate or too great. -/
def scalar? (digits : List Char) : Option Char := do
  let code ← hexValue 0 digits
  if code.isValidChar then return Char.ofNat code else none

def simpleEscape? : Char → Option Char
  | 'b' => some '\x08'
  | 't' => some '\t'
  | 'n' => some '\n'
  | 'f' => some '\x0c'
  | 'r' => some '\r'
  | 'e' => some '\x1b'
  | '"' => some '"'
  | '\\' => some '\\'
  | _ => none

def prepend (c : Char) (body : Option (List Char × List Char)) : Option (List Char × List Char) :=
  body.map fun (cs, rest) => (c :: cs, rest)

def basic : Reader (List Char)
  | [] => none
  | '"' :: rest => some ([], rest)
  | '\\' :: 'x' :: a :: b :: rest => do prepend (← scalar? [a, b]) (basic rest)
  | '\\' :: 'u' :: a :: b :: c :: d :: rest => do prepend (← scalar? [a, b, c, d]) (basic rest)
  | '\\' :: 'U' :: a :: b :: c :: d :: e :: f :: g :: h :: rest => do
    prepend (← scalar? [a, b, c, d, e, f, g, h]) (basic rest)
  | '\\' :: letter :: rest => do prepend (← simpleEscape? letter) (basic rest)
  | c :: rest => if isPrintable c ∧ c ≠ '\\' then prepend c (basic rest) else none

def literal : Reader (List Char)
  | [] => none
  | '\'' :: rest => some ([], rest)
  | c :: rest => if isPrintable c then prepend c (literal rest) else none

def endsLine (cs : List Char) : Bool :=
  (lineFeed? (skipSpace cs)).isSome

/-- A basic string of several lines after its opening quotes; `skipping` blanks after a backslash
at a line end. -/
def basicLines (skipping : Bool) : Reader (List Char)
  | [] => none
  | '"' :: '"' :: '"' :: '"' :: '"' :: rest => some (['"', '"'], rest)
  | '"' :: '"' :: '"' :: '"' :: rest => some (['"'], rest)
  | '"' :: '"' :: '"' :: rest => some ([], rest)
  | '\\' :: 'x' :: a :: b :: rest => do prepend (← scalar? [a, b]) (basicLines false rest)
  | '\\' :: 'u' :: a :: b :: c :: d :: rest => do
    prepend (← scalar? [a, b, c, d]) (basicLines false rest)
  | '\\' :: 'U' :: a :: b :: c :: d :: e :: f :: g :: h :: rest => do
    prepend (← scalar? [a, b, c, d, e, f, g, h]) (basicLines false rest)
  | '\\' :: letter :: rest =>
    if endsLine (letter :: rest) then basicLines true (letter :: rest)
    else do prepend (← simpleEscape? letter) (basicLines false rest)
  | '\n' :: rest => if skipping then basicLines true rest else prepend '\n' (basicLines false rest)
  | '\r' :: '\n' :: rest =>
    if skipping then basicLines true rest
    else prepend '\r' (prepend '\n' (basicLines false rest))
  | c :: rest =>
    if skipping && isSpace c then basicLines true rest
    else if isPrintable c ∧ c ≠ '\\' then prepend c (basicLines false rest)
    else none

def literalLines : Reader (List Char)
  | [] => none
  | '\'' :: '\'' :: '\'' :: '\'' :: '\'' :: rest => some (['\'', '\''], rest)
  | '\'' :: '\'' :: '\'' :: '\'' :: rest => some (['\''], rest)
  | '\'' :: '\'' :: '\'' :: rest => some ([], rest)
  | '\n' :: rest => prepend '\n' (literalLines rest)
  | '\r' :: '\n' :: rest => prepend '\r' (prepend '\n' (literalLines rest))
  | c :: rest => if isPrintable c then prepend c (literalLines rest) else none

def dropLineFeed (cs : List Char) : List Char :=
  (lineFeed? cs).getD cs

def line : Reader (List Char)
  | '"' :: rest => basic rest
  | '\'' :: rest => literal rest
  | _ => none

def any : Reader (List Char)
  | '"' :: '"' :: '"' :: rest => basicLines false (dropLineFeed rest)
  | '\'' :: '\'' :: '\'' :: rest => literalLines (dropLineFeed rest)
  | cs => line cs

end ApiClient.Toml.Quoted
