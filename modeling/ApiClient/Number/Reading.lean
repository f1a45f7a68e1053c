import ApiClient.Number.Binary64

/-! Reading numbers.

`spanDigits` takes the digits at the front of a text. `Binary64.ofText?` reads decimal notation,
correctly rounded, and the names of what is not finite in either case of letters.
-/

set_option autoImplicit false

namespace ApiClient.Number

def spanDigits (cs : List Char) : List Char × List Char :=
  (cs.takeWhile Char.isDigit, cs.dropWhile Char.isDigit)

def digitValue (c : Char) : Nat :=
  c.toNat - '0'.toNat

def digitsValue (ds : List Char) : Nat :=
  ds.foldl (fun value d => value * 10 + digitValue d) 0

def takeSign : List Char → Bool × List Char
  | '-' :: rest => (true, rest)
  | '+' :: rest => (false, rest)
  | rest => (false, rest)

def exponent? : List Char → Option Int
  | [] => some 0
  | c :: rest =>
    if c = 'e' ∨ c = 'E' then
      let (negative, ds) := takeSign rest
      if ds ≠ [] ∧ ds.all Char.isDigit then
        some (if negative then -(digitsValue ds : Int) else digitsValue ds)
      else none
    else none

def decimalText? (negative : Bool) (cs : List Char) : Option Binary64 :=
  let (whole, rest) := spanDigits cs
  let (part, tail) := match rest with
    | '.' :: rest => spanDigits rest
    | rest => ([], rest)
  if whole = [] ∧ part = [] then none
  else (exponent? tail).map fun exponent =>
    Binary64.ofDecimal negative (digitsValue (whole ++ part)) (exponent - part.length)

def Binary64.ofText? (text : String) : Option Binary64 :=
  let (negative, body) := takeSign text.toList
  let name := String.ofList (body.map Char.toLower)
  if name = "nan" then some .notANumber
  else if name = "inf" ∨ name = "infinity" then some (.infinite negative)
  else decimalText? negative body

end ApiClient.Number
