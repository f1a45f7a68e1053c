import ApiClient.Number.Reading
import ApiClient.Text.Lines
import ApiClient.Toml.Value

/-! Numbers of a configuration text.

Underscores may separate digits, but only between two of them. A decimal number has no zero in
front of other digits. Integers may have a hexadecimal, octal or binary spelling without a sign.
An integer outside the range of 128-bit words and a float beyond the greatest double are refused.
-/

set_option autoImplicit false

namespace ApiClient.Toml.Numeral

open ApiClient.Number

/-- Digits without the underscores between them. -/
def digits? (isDigit : Char → Bool) (cs : List Char) : Option (List Char) :=
  let groups := Text.split '_' cs
  if groups.all fun group => !group.isEmpty && group.all isDigit then some groups.flatten else none

/-- Decimal digits without a superfluous zero in front. -/
def decimalDigits? (cs : List Char) : Option (List Char) := do
  let ds ← digits? Char.isDigit cs
  if ds.head? = some '0' ∧ ds ≠ ['0'] then none else return ds

def hexDigitValue (c : Char) : Nat :=
  if c.isDigit then digitValue c else c.toLower.toNat - 'a'.toNat + 10

def baseValue (base : Nat) (ds : List Char) : Nat :=
  ds.foldl (fun value d => value * base + hexDigitValue d) 0

def isHexDigit (c : Char) : Bool :=
  c.isDigit || ('a' ≤ c && c ≤ 'f') || ('A' ≤ c && c ≤ 'F')

def isOctalDigit (c : Char) : Bool :=
  '0' ≤ c && c ≤ '7'

def isBinaryDigit (c : Char) : Bool :=
  c == '0' || c == '1'

def inRange (value : Int) : Option Value :=
  if -Int.ofNat (Nat.pow 2 127) ≤ value ∧ value < Int.ofNat (Nat.pow 2 128) then some (.integer value) else none

def integer? : List Char → Option Value
  | '0' :: 'x' :: ds => do inRange (baseValue 16 (← digits? isHexDigit ds))
  | '0' :: 'o' :: ds => do inRange (baseValue 8 (← digits? isOctalDigit ds))
  | '0' :: 'b' :: ds => do inRange (baseValue 2 (← digits? isBinaryDigit ds))
  | cs => do
    let (negative, ds) := takeSign cs
    let magnitude := digitsValue (← decimalDigits? ds)
    inRange (if negative then -magnitude else magnitude)

def power? (cs : List Char) : Option Int := do
  let (negative, ds) := takeSign cs
  let magnitude := digitsValue (← digits? Char.isDigit ds)
  return if negative then -magnitude else magnitude

def isPowerLetter (c : Char) : Bool :=
  c == 'e' || c == 'E'

def float? (word : List Char) : Option Value := do
  let (_, body) := takeSign word
  let (mantissa, tail) := body.span fun c => !isPowerLetter c
  let (whole, point) := mantissa.span (· != '.')
  let wholeDigits ← decimalDigits? whole
  let partDigits ← match point with
    | [] => some []
    | _ :: ds => digits? Char.isDigit ds
  let power ← match tail with
    | [] => if point.isEmpty then none else some 0
    | _ :: rest => power? rest
  let value := Binary64.ofDecimal false (digitsValue (wholeDigits ++ partDigits))
    (power - partDigits.length)
  if value.isFinite then return .float (String.ofList word) else none

def isSpecial (word : List Char) : Bool :=
  let name := String.ofList (takeSign word).2
  name == "inf" || name == "nan"

def read? (word : List Char) : Option Value :=
  if isSpecial word then some (.float (String.ofList word))
  else integer? word <|> float? word

end ApiClient.Toml.Numeral
