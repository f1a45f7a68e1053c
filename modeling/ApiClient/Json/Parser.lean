import ApiClient.Json.Numeral
import ApiClient.Json.Quoted

/-! Reading data from its text.

A value is read from the front of the characters; what follows it is returned. Arrays and objects
may be nested only as deep as the limit says, which also bounds the recursion.
-/

set_option autoImplicit false

namespace ApiClient.Json

/-- Reads a value from the front of a text and returns what follows it. -/
abbrev Reader (α : Type) := List Char → Option (α × List Char)

def skipBlank (cs : List Char) : List Char :=
  cs.dropWhile fun c => c == ' ' || c == '\t' || c == '\n' || c == '\r'

/-- One item or more, separated by commas, up to the closing character. The fuel bounds their
number. -/
def readItems {α : Type} (item : Reader α) (close : Char) : Nat → Reader (List α)
  | 0, _ => none
  | fuel + 1, cs => do
    let (first, rest) ← item cs
    match skipBlank rest with
    | [] => none
    | c :: rest =>
      if c = close then return ([first], rest)
      else if c = ',' then
        let (others, rest) ← readItems item close fuel rest
        return (first :: others, rest)
      else none

def readGroup {α : Type} (item : Reader α) (close : Char) (cs : List Char) :
    Option (List α × List Char) :=
  match skipBlank cs with
  | [] => none
  | c :: rest => if c = close then some ([], rest) else readItems item close (rest.length + 1) (c :: rest)

def readField (value : Reader Json) (cs : List Char) : Option ((String × Json) × List Char) :=
  match skipBlank cs with
  | '"' :: rest => do
    let (name, rest) ← Quoted.readBody? rest
    match skipBlank rest with
    | ':' :: rest =>
      let (found, rest) ← value rest
      return ((String.ofList name, found), rest)
    | _ => none
  | _ => none

def readScalar : Reader Json
  | 'n' :: 'u' :: 'l' :: 'l' :: rest => some (.null, rest)
  | 't' :: 'r' :: 'u' :: 'e' :: rest => some (.bool true, rest)
  | 'f' :: 'a' :: 'l' :: 's' :: 'e' :: rest => some (.bool false, rest)
  | '"' :: rest => (Quoted.readBody? rest).map fun (body, rest) => (.string (String.ofList body), rest)
  | cs => Numeral.read? cs

def readValue : Nat → Reader Json
  | 0, cs => readScalar (skipBlank cs)
  | limit + 1, cs =>
    match skipBlank cs with
    | '[' :: rest =>
      (readGroup (readValue limit) ']' rest).map fun (items, rest) => (.array items, rest)
    | '\x7b' :: rest =>
      (readGroup (readField (readValue limit)) '\x7d' rest).map fun (fields, rest) =>
        (.object fields, rest)
    | cs => readScalar cs

def parse? (limit : Nat) (text : String) : Option Json := do
  let (value, rest) ← readValue limit text.toList
  if skipBlank rest = [] then return value else none

end ApiClient.Json
