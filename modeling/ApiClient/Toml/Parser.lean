import ApiClient.Toml.Moment
import ApiClient.Toml.Numeral
import ApiClient.Toml.Quoted
import ApiClient.Toml.Table

/-! Reading a configuration text.

A text is a sequence of sections: entries without a header first, then headers, each with the
entries below it. Arrays and braces may span lines and end in a comma; they may be nested only as
deep as the limit says. A mark of byte order in front of the text is passed over.
-/

set_option autoImplicit false

namespace ApiClient.Toml

open Table

def isKeyChar (c : Char) : Bool :=
  c.isAlphanum || c == '_' || c == '-'

def readKeyPart (cs : List Char) : Option (String × List Char) :=
  match Quoted.line cs with
  | some (key, rest) => some (String.ofList key, rest)
  | none =>
    match cs.span isKeyChar with
    | ([], _) => none
    | (key, rest) => some (String.ofList key, rest)

/-- The parts of a dotted key, the last one apart. The fuel bounds their number. -/
def readKey : Nat → Reader (List String × String)
  | 0, _ => none
  | fuel + 1, cs => do
    let (first, rest) ← readKeyPart cs
    match skipSpace rest with
    | '.' :: rest =>
      let ((path, key), rest) ← readKey fuel (skipSpace rest)
      return ((first :: path, key), rest)
    | rest => return (([], first), rest)

def readEntry (value : Reader Value) (cs : List Char) : Option (Entry × List Char) := do
  let ((path, key), rest) ← readKey cs.length cs
  match rest with
  | '=' :: rest =>
    let (found, rest) ← value (skipSpace rest)
    return (⟨path, key, found⟩, rest)
  | _ => none

/-- Items separated by commas up to the closing character, which a comma may precede. The fuel
bounds their number. -/
def readItems {α : Type} (item : Reader α) (close : Char) : Nat → Reader (List α)
  | 0, _ => none
  | fuel + 1, cs => do
    match ← skipTrivia false cs with
    | [] => none
    | c :: rest =>
      if c = close then return ([], rest)
      else
        let (first, rest) ← item (c :: rest)
        match ← skipTrivia false rest with
        | [] => none
        | d :: rest =>
          if d = close then return ([first], rest)
          else if d = ',' then
            let (others, rest) ← readItems item close fuel rest
            return (first :: others, rest)
          else none

def isWordChar (c : Char) : Bool :=
  c.isAlphanum || c == '_' || c == '-' || c == '+' || c == '.' || c == ':'

/-- An unquoted value. A blank between a date and a digit belongs to the value. -/
def readWord (cs : List Char) : List Char × List Char :=
  let (word, rest) := cs.span isWordChar
  match rest with
  | ' ' :: d :: rest =>
    if Moment.isDate word && d.isDigit then
      let (time, rest) := (d :: rest).span isWordChar
      (word ++ ' ' :: time, rest)
    else (word, ' ' :: d :: rest)
  | rest => (word, rest)

def wordValue? (word : List Char) : Option Value :=
  if word = ['t', 'r', 'u', 'e'] then some (.boolean true)
  else if word = ['f', 'a', 'l', 's', 'e'] then some (.boolean false)
  else if Moment.isMoment word then some (.dateTime (String.ofList word))
  else Numeral.read? word

def readScalar (cs : List Char) : Option (Value × List Char) :=
  match cs with
  | '"' :: _ => (Quoted.any cs).map fun (text, rest) => (.string (String.ofList text), rest)
  | '\'' :: _ => (Quoted.any cs).map fun (text, rest) => (.string (String.ofList text), rest)
  | _ =>
    let (word, rest) := readWord cs
    (wordValue? word).map fun value => (value, rest)

def readValue : Nat → Reader Value
  | 0, cs => readScalar cs
  | limit + 1, cs =>
    match cs with
    | '[' :: rest => do
      let (items, rest) ← readItems (readValue limit) ']' (rest.length + 1) rest
      return (.array false items, rest)
    | '\x7b' :: rest => do
      let (entries, rest) ←
        readItems (readEntry (readValue limit)) '\x7d' (rest.length + 1) rest
      return (.table (← (empty .inline).assignAll entries), rest)
    | cs => readScalar cs

def readHeader : Reader Header
  | '[' :: '[' :: rest => do
    let ((path, key), rest) ← readKey rest.length (skipSpace rest)
    match rest with
    | ']' :: ']' :: rest => return (⟨path, key, true⟩, rest)
    | _ => none
  | '[' :: rest => do
    let ((path, key), rest) ← readKey rest.length (skipSpace rest)
    match rest with
    | ']' :: rest => return (⟨path, key, false⟩, rest)
    | _ => none
  | _ => none

inductive Line where
  | header (header : Header)
  | entry (entry : Entry)

/-- The lines of a text that hold something. The fuel bounds their number. -/
def readLines (limit : Nat) : Nat → List Char → Option (List Line)
  | 0, _ => none
  | fuel + 1, cs => do
    match ← skipTrivia false cs with
    | [] => return []
    | '[' :: rest =>
      let (header, rest) ← readHeader ('[' :: rest)
      let lines ← readLines limit fuel (← lineEnd? rest)
      return .header header :: lines
    | cs =>
      let (entry, rest) ← readEntry (readValue limit) cs
      let lines ← readLines limit fuel (← lineEnd? rest)
      return .entry entry :: lines

def sections : List Line → List Entry × List (Header × List Entry)
  | [] => ([], [])
  | .entry entry :: rest =>
    let (entries, later) := sections rest
    (entry :: entries, later)
  | .header header :: rest =>
    let (entries, later) := sections rest
    ([], (header, entries) :: later)

def nestingLimit : Nat := 80

def skipByteOrderMark : List Char → List Char
  | '\ufeff' :: rest => rest
  | cs => cs

def parse? (text : String) : Option Value := do
  let cs := skipByteOrderMark text.toList
  let (entries, later) := sections (← readLines nestingLimit (cs.length + 1) cs)
  let root ← (empty .header).assignAll entries
  let root ← later.foldlM (fun root (header, entries) => root.addSection header entries) root
  return .table root

end ApiClient.Toml
